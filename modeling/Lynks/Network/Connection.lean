import Lynks.Network.Router

/-!
# `connection`

One client connection: its socket, the read and the write that may be outstanding on it, the
queue of responses, and what has been written so far. Requests are numbered in the order they
are read, and a response carries the number of the request it answers; the program keeps no
such numbers.
-/

namespace Lynks
set_option autoImplicit false

/-- An asynchronous operation on the socket. One started on a closed socket fails. -/
inductive Pending where
  | idle
  | started (onOpen : Bool)
  deriving DecidableEq, Repr

/-- A response and the number of the request it answers. -/
structure Answer where
  number : Nat
  response : HttpResponse
  deriving DecidableEq, Repr

structure Connection where
  socketOpen : Bool
  reading : Pending
  writing : Pending
  requestsRead : Nat
  responses : List Answer
  written : List Answer
  deriving DecidableEq, Repr

namespace Connection

/-- `connection::is_connected`. -/
def isConnected (c : Connection) : Bool := c.socketOpen

/-- `connection::read_request`. -/
def readRequest (c : Connection) : Connection := { c with reading := .started c.socketOpen }

/-- `connection::connect_to_client`, on the connection just constructed. -/
def connectToClient (c : Connection) : Connection := if c.socketOpen then c.readRequest else c

/-- A connection on an accepted socket. -/
def accepted : Connection :=
  { socketOpen := true, reading := .idle, writing := .idle, requestsRead := 0, responses := [],
    written := [] }

/-- `connection::add_to_incoming_requests`, less the push to the shared queue. -/
def addToIncomingRequests (c : Connection) : Connection :=
  readRequest { c with requestsRead := c.requestsRead + 1 }

/-- The read handler on `end_of_stream` and on every other error: `shutdown` and `close`. That
`shutdown` throws on a socket which is closed already is left to `Process`. -/
def readFailed (c : Connection) : Connection := { c with reading := .idle, socketOpen := false }

/-- `connection::write_response`: an `async_write` of the front of the queue. -/
def writeResponse (c : Connection) : Connection := { c with writing := .started c.socketOpen }

/-- The handler `connection::send_response` posts. -/
def sendResponse (c : Connection) (a : Answer) : Connection :=
  let isWriting := !c.responses.isEmpty
  let pushed := { c with responses := c.responses ++ [a] }
  if isWriting then pushed else pushed.writeResponse

/-- The write handler on success: the front is popped, and the next write started. -/
def writeDone (c : Connection) : Connection :=
  match c.responses with
  | [] => { c with writing := .idle }
  | a :: rest =>
    let popped := { c with responses := rest, written := c.written ++ [a], writing := .idle }
    if rest.isEmpty then popped else popped.writeResponse

/-- The write handler on an error. -/
def writeFailed (c : Connection) : Connection := { c with writing := .idle, socketOpen := false }

/-- What has been given to the connection to write, in order. -/
def given (c : Connection) : List Answer := c.written ++ c.responses

/-- On an open socket a write is outstanding exactly when there is something to write. -/
def Writes (c : Connection) : Prop :=
  c.socketOpen = true → c.writing = if c.responses = [] then .idle else .started true

variable {c : Connection}

@[simp] theorem given_sendResponse (a : Answer) : (c.sendResponse a).given = c.given ++ [a] := by
  unfold sendResponse
  cases c.responses.isEmpty <;> simp [given, writeResponse]

@[simp] theorem given_writeDone : c.writeDone.given = c.given := by
  unfold writeDone
  split
  · rfl
  · rename_i a rest queue
    cases rest.isEmpty <;> simp [given, writeResponse, queue]

@[simp] theorem socketOpen_sendResponse (a : Answer) :
    (c.sendResponse a).socketOpen = c.socketOpen := by
  unfold sendResponse
  cases c.responses.isEmpty <;> rfl

@[simp] theorem socketOpen_writeDone : c.writeDone.socketOpen = c.socketOpen := by
  unfold writeDone
  split
  · rfl
  · rename_i a rest queue
    cases rest.isEmpty <;> rfl

theorem responses_writeDone {a : Answer} {rest : List Answer} (queue : c.responses = a :: rest) :
    c.writeDone.responses = rest := by
  unfold writeDone
  rw [queue]
  cases rest <;> rfl

theorem Writes.accepted : Writes Connection.accepted.connectToClient := fun _ => rfl

theorem Writes.sendResponse (writes : c.Writes) (a : Answer) : (c.sendResponse a).Writes := by
  intro isOpen
  have wasOpen : c.socketOpen = true := by
    rw [← socketOpen_sendResponse a]
    exact isOpen
  cases queue : c.responses with
  | nil => simp [Connection.sendResponse, queue, writeResponse, wasOpen]
  | cons b rest => simpa [Connection.sendResponse, queue] using writes wasOpen

theorem Writes.writeDone : c.writeDone.Writes := by
  intro isOpen
  have wasOpen : c.socketOpen = true := by
    rw [← socketOpen_writeDone]
    exact isOpen
  cases queue : c.responses with
  | nil => simp [Connection.writeDone, queue]
  | cons a rest =>
    cases rest <;> simp [Connection.writeDone, queue, writeResponse, wasOpen]

end Connection

end Lynks
