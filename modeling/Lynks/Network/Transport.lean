import Lynks.Lib.Expansion
import Lynks.Network.Handler

/-!
# Queries and messages, operation by operation

`db_connection::send_query_impl` and `temporary_connection::send_request` as programs over what
they wait for: a connection from the pool, a statement, the rows; the endpoints, the socket, the
write, the reply. A destructor is an operation of its own, on every way out of its scope.
`Steps` lists what a call has been answered before each operation, `Returned` what it has been
answered when it returns.
-/

namespace Lynks
set_option autoImplicit false

open Lib Janus

/-- What a handler waits for. -/
inductive TransportOp where
  /-- an operation on no socket: the session store, the path, the response buffer -/
  | direct (o : Op)
  /-- `connection_pool::async_get_connection` -/
  | getConnection
  | prepareStatement (sql : String)
  /-- `async_execute` of the statement, bound to its parameter -/
  | execute (param : String)
  /-- `~pooled_connection` -/
  | returnConnection
  | resolve (host port : String)
  | connect
  | write (request : JanusRequest)
  | read
  /-- `~temporary_connection` -/
  | close
  deriving DecidableEq, Repr

/-- Whether `ec` is unset afterwards, and what has been read. -/
def TransportOp.Ans : TransportOp → Type
  | direct o => o.Ans
  | getConnection => Bool
  | prepareStatement _ => Bool
  | execute _ => Option (List Row)
  | returnConnection => Unit
  | resolve _ _ => Bool
  | connect => Bool
  | write _ => Bool
  | read => Option String
  | close => Unit

/-- Whether it goes over a connection, to the database or to Janus. -/
def TransportOp.onSocket : TransportOp → Bool
  | direct _ => false
  | _ => true

/-- Whether it is part of a message to Janus. -/
def TransportOp.toJanus : TransportOp → Bool
  | resolve _ _ => true
  | connect => true
  | write _ => true
  | read => true
  | close => true
  | _ => false

/-- Whether it waits for the thread of the Janus context, whose sockets these are. -/
def TransportOp.awaitsContext : TransportOp → Bool
  | direct o => o.awaitsContext
  | resolve _ _ => true
  | connect => true
  | write _ => true
  | read => true
  | _ => false

/-- A stretch of a handler, down to the sockets. -/
abbrev Transport (α : Type) : Type := Prog TransportOp TransportOp.Ans Exception α

abbrev TransportEvent : Type := Prog.Event TransportOp TransportOp.Ans

namespace Transport

def getConnection : Transport Bool := .perform TransportOp.getConnection

def prepareStatement (sql : String) : Transport Bool := .perform (TransportOp.prepareStatement sql)

def execute (param : String) : Transport (Option (List Row)) :=
  .perform (TransportOp.execute param)

def returnConnection : Transport Unit := .perform TransportOp.returnConnection

def resolve (host port : String) : Transport Bool := .perform (TransportOp.resolve host port)

def connect : Transport Bool := .perform TransportOp.connect

def write (request : JanusRequest) : Transport Bool := .perform (TransportOp.write request)

def read : Transport (Option String) := .perform TransportOp.read

def close : Transport Unit := .perform TransportOp.close

def ofDirect (o : Op) (a : o.Ans) : TransportEvent := ⟨.direct o, a⟩
def fetched (ok : Bool) : TransportEvent := ⟨.getConnection, ok⟩
def prepared (sql : String) (ok : Bool) : TransportEvent := ⟨.prepareStatement sql, ok⟩
def executed (param : String) (rows : Option (List Row)) : TransportEvent := ⟨.execute param, rows⟩
def givenBack : TransportEvent := ⟨.returnConnection, ()⟩
def resolved (host port : String) (ok : Bool) : TransportEvent := ⟨.resolve host port, ok⟩
def connected (ok : Bool) : TransportEvent := ⟨.connect, ok⟩
def written (request : JanusRequest) (ok : Bool) : TransportEvent := ⟨.write request, ok⟩
def received (body : Option String) : TransportEvent := ⟨.read, body⟩
def closed : TransportEvent := ⟨.close, ()⟩

end Transport

open Transport

/-- The pooled connection goes out of scope. -/
def releasing {α : Type} (result : α) : Transport α := do
  returnConnection
  pure result

/-- `db_connection::send_query_impl`, for one parameter. A `pooled_connection` that was not
fetched has nothing to return. -/
def sendQueryImpl (sql param : String) : Transport (Option (List Row)) := do
  let fetched ← getConnection
  match fetched with
  | false => pure none
  | true =>
    let prepared ← prepareStatement sql
    match prepared with
    | false => releasing none
    | true =>
      let result ← execute param
      match result with
      | none => releasing none
      | some rows => releasing (some rows)

namespace TemporaryConnection

/-- `temporary_connection::connect_to_server`. -/
def connectToServer (host port : String) : Transport Bool := do
  let resolved ← resolve host port
  match resolved with
  | false => pure false
  | true => connect

/-- The connection goes out of scope. -/
def closing {α : Type} (result : α) : Transport α := do
  close
  pure result

/-- `temporary_connection::send_request`, with `send_request_impl` and `read_response`. -/
def sendRequest (host port : String) (request : JanusRequest) : Transport (Option String) := do
  let connected ← connectToServer host port
  match connected with
  | false => closing none
  | true =>
    let requestSent ← write request
    match requestSent with
    | false => closing none
    | true =>
      let response ← read
      match response with
      | none => closing none
      | some response => closing (some response)

end TemporaryConnection

/-- The call behind an operation. -/
def call (host port : String) : (o : Op) → Transport o.Ans
  | .sendQuery sql param => sendQueryImpl sql param
  | .newSession username => .perform (TransportOp.direct (.newSession username))
  | .validateSession token => .perform (TransportOp.direct (.validateSession token))
  | .getUsernameByToken token => .perform (TransportOp.direct (.getUsernameByToken token))
  | .getPath => .perform (TransportOp.direct .getPath)
  | .sendTemporary request => TemporaryConnection.sendRequest host port request
  | .waitForTransaction transaction =>
    .perform (TransportOp.direct (.waitForTransaction transaction))

/-! ## What a call is answered -/

/-- An operation that waits for no socket. -/
def Op.isDirect : Op → Bool
  | .sendQuery _ _ => false
  | .sendTemporary _ => false
  | _ => true

section

variable (host port : String)

/-- What a call has been answered when it performs an operation. -/
inductive Steps : Op → List TransportEvent → TransportOp → Prop where
  | direct (o : Op) (here : o.isDirect = true) : Steps o [] (.direct o)
  | fetch (sql param : String) : Steps (.sendQuery sql param) [] .getConnection
  | prepare (sql param : String) :
      Steps (.sendQuery sql param) [fetched true] (.prepareStatement sql)
  | execute (sql param : String) :
      Steps (.sendQuery sql param) [fetched true, prepared sql true] (.execute param)
  | giveBackUnprepared (sql param : String) :
      Steps (.sendQuery sql param) [fetched true, prepared sql false] .returnConnection
  | giveBack (sql param : String) (rows : Option (List Row)) :
      Steps (.sendQuery sql param) [fetched true, prepared sql true, executed param rows]
        .returnConnection
  | resolve (request : JanusRequest) : Steps (.sendTemporary request) [] (.resolve host port)
  | connect (request : JanusRequest) :
      Steps (.sendTemporary request) [resolved host port true] .connect
  | write (request : JanusRequest) :
      Steps (.sendTemporary request) [resolved host port true, connected true] (.write request)
  | read (request : JanusRequest) :
      Steps (.sendTemporary request)
        [resolved host port true, connected true, written request true] .read
  | closeUnresolved (request : JanusRequest) :
      Steps (.sendTemporary request) [resolved host port false] .close
  | closeUnconnected (request : JanusRequest) :
      Steps (.sendTemporary request) [resolved host port true, connected false] .close
  | closeUnwritten (request : JanusRequest) :
      Steps (.sendTemporary request)
        [resolved host port true, connected true, written request false] .close
  | close (request : JanusRequest) (body : Option String) :
      Steps (.sendTemporary request)
        [resolved host port true, connected true, written request true, received body] .close

/-- What a query has been answered when it returns rows, or none. -/
inductive Queried (sql param : String) : Option (List Row) → List TransportEvent → Prop where
  | unfetched : Queried sql param none [fetched false]
  | unprepared : Queried sql param none [fetched true, prepared sql false, givenBack]
  | executed (rows : Option (List Row)) :
      Queried sql param rows [fetched true, prepared sql true, executed param rows, givenBack]

/-- What a message to Janus has been answered when it returns a body, or none. -/
inductive Exchanged (request : JanusRequest) : Option String → List TransportEvent → Prop where
  | unresolved : Exchanged request none [resolved host port false, closed]
  | unconnected : Exchanged request none [resolved host port true, connected false, closed]
  | unwritten : Exchanged request none
      [resolved host port true, connected true, written request false, closed]
  | received (body : Option String) : Exchanged request body
      [resolved host port true, connected true, written request true, received body, closed]

/-- What a call has been answered when it returns. -/
def Returned : (o : Op) → o.Ans → List TransportEvent → Prop
  | .sendQuery sql param, rows, seg => Queried sql param rows seg
  | .sendTemporary request, body, seg => Exchanged host port request body seg
  | .newSession username, a, seg => seg = [ofDirect (.newSession username) a]
  | .validateSession token, a, seg => seg = [ofDirect (.validateSession token) a]
  | .getUsernameByToken token, a, seg => seg = [ofDirect (.getUsernameByToken token) a]
  | .getPath, a, seg => seg = [ofDirect .getPath a]
  | .waitForTransaction transaction, a, seg => seg = [ofDirect (.waitForTransaction transaction) a]

end

variable {host port : String}

/-- What a call leaves behind. -/
def Leaves (host port : String) (o : Op) (seg : List TransportEvent) (r : Outcome Exception o.Ans) :
    Prop := ∃ a, r = .ok a ∧ Returned host port o a seg

theorem direct_wp {o : Op} (here : o.isDirect = true)
    (returned : ∀ a, Returned host port o a [ofDirect o a]) :
    (Prog.perform (TransportOp.direct o) : Transport o.Ans).wp (Steps host port o)
      (Leaves host port o) [] :=
  ⟨.direct o here, fun a => ⟨a, rfl, returned a⟩⟩

theorem sendQueryImpl_wp (sql param : String) :
    (sendQueryImpl sql param).wp (Steps host port (.sendQuery sql param))
      (Leaves host port (.sendQuery sql param)) [] := by
  refine ⟨.fetch sql param, fun ok => ?_⟩
  cases ok with
  | false => exact ⟨none, rfl, .unfetched⟩
  | true =>
    refine ⟨.prepare sql param, fun ok => ?_⟩
    cases ok with
    | false => exact ⟨.giveBackUnprepared sql param, fun _ => ⟨none, rfl, .unprepared⟩⟩
    | true =>
      refine ⟨.execute sql param, fun rows => ?_⟩
      cases rows with
      | none => exact ⟨.giveBack sql param none, fun _ => ⟨none, rfl, .executed none⟩⟩
      | some rows =>
        exact ⟨.giveBack sql param (some rows), fun _ => ⟨some rows, rfl, .executed (some rows)⟩⟩

theorem sendRequest_wp_transport (request : JanusRequest) :
    (TemporaryConnection.sendRequest host port request).wp
      (Steps host port (.sendTemporary request)) (Leaves host port (.sendTemporary request)) [] := by
  refine ⟨.resolve request, fun ok => ?_⟩
  cases ok with
  | false => exact ⟨.closeUnresolved request, fun _ => ⟨none, rfl, .unresolved⟩⟩
  | true =>
    refine ⟨.connect request, fun ok => ?_⟩
    cases ok with
    | false => exact ⟨.closeUnconnected request, fun _ => ⟨none, rfl, .unconnected⟩⟩
    | true =>
      refine ⟨.write request, fun ok => ?_⟩
      cases ok with
      | false => exact ⟨.closeUnwritten request, fun _ => ⟨none, rfl, .unwritten⟩⟩
      | true =>
        refine ⟨.read request, fun body => ?_⟩
        cases body with
        | none => exact ⟨.close request none, fun _ => ⟨none, rfl, .received none⟩⟩
        | some body =>
          exact ⟨.close request (some body), fun _ => ⟨some body, rfl, .received (some body)⟩⟩

/-- **What every call does**, whatever it is answered. -/
theorem call_wp (o : Op) :
    (call host port o).wp (Steps host port o) (Leaves host port o) [] := by
  cases o with
  | sendQuery sql param => exact sendQueryImpl_wp sql param
  | sendTemporary request => exact sendRequest_wp_transport request
  | newSession username => exact direct_wp rfl fun a => rfl
  | validateSession token => exact direct_wp rfl fun a => rfl
  | getUsernameByToken token => exact direct_wp rfl fun a => rfl
  | getPath => exact direct_wp rfl fun a => rfl
  | waitForTransaction transaction => exact direct_wp rfl fun a => rfl

/-! ## What a call holds -/

namespace Transport

/-- Whether something is held after a past: what the last event about it says. -/
def held (about : TransportEvent → Option Bool) (past : List TransportEvent) : Bool :=
  past.foldl (fun held e => (about e).getD held) false

/-- A connection of the pool. -/
def pooled : TransportEvent → Option Bool
  | ⟨.getConnection, true⟩ => some true
  | ⟨.returnConnection, _⟩ => some false
  | _ => none

/-- An open socket to Janus. -/
def socket : TransportEvent → Option Bool
  | ⟨.connect, true⟩ => some true
  | ⟨.close, _⟩ => some false
  | _ => none

@[simp] theorem held_snoc (about : TransportEvent → Option Bool) (past : List TransportEvent)
    (e : TransportEvent) : held about (past ++ [e]) = (about e).getD (held about past) := by
  simp [held]

/-- Nothing is held from before. -/
theorem held_append {about : TransportEvent → Option Bool} {past : List TransportEvent}
    (free : held about past = false) (seg : List TransportEvent) :
    held about (past ++ seg) = held about seg := by
  unfold held at *
  rw [List.foldl_append, free]

/-- A call that has returned holds nothing. -/
theorem Returned.free {host port : String} {o : Op} {a : o.Ans} {seg : List TransportEvent}
    (returned : Returned host port o a seg) :
    held pooled seg = false ∧ held socket seg = false := by
  cases o with
  | sendQuery sql param =>
    have queried : Queried sql param a seg := returned
    cases queried <;> exact ⟨rfl, rfl⟩
  | sendTemporary request =>
    have exchanged : Exchanged host port request a seg := returned
    cases exchanged <;> exact ⟨rfl, rfl⟩
  | _ =>
    rw [show seg = _ from returned]
    exact ⟨rfl, rfl⟩

end Transport

theorem call_implements : Implements (call host port) := by
  constructor
  · intro o
    cases o <;> exact ⟨_, _, rfl⟩
  · intro o seg r left
    obtain ⟨a, rfl, -⟩ := Prog.after_ended (call_wp o) left
    exact ⟨a, rfl⟩

end Lynks
