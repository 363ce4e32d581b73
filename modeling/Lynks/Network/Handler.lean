import Lynks.Janus.Messages
import Lynks.Janus.ResponseMessage
import Lynks.Janus.RequestMapper
import Lynks.Network.User

/-!
# Request handlers

The coroutines that handle a request, from the router down to the repositories, as programs
over what they ask of the database, the session store and Janus. Everything between two such
operations runs on the context thread without interruption.
-/

namespace Lynks
set_option autoImplicit false

open Lib Janus

/-- A row of `users`: both text columns are nullable. -/
structure Row where
  id : Int64
  username : Option String
  password : Option String
  deriving DecidableEq, Repr

/-- What a handler asks for. -/
inductive Op where
  /-- `db_connection::send_query` with one parameter -/
  | sendQuery (sql param : String)
  | newSession (username : String)
  | validateSession (token : String)
  | getUsernameByToken (token : String)
  /-- `janus::get_path` -/
  | getPath
  /-- `temporary_connection::send_request` -/
  | sendTemporary (request : JanusRequest)
  | waitForTransaction (transaction : String)
  deriving DecidableEq, Repr

/-- What it gets: rows unless the query failed, the body of the reply unless there was none. -/
def Op.Ans : Op → Type
  | sendQuery _ _ => Option (List Row)
  | newSession _ => Option String
  | validateSession _ => Bool
  | getUsernameByToken _ => Option String
  | getPath => String
  | sendTemporary _ => Option String
  | waitForTransaction _ => Option ResponseMessage

/-- The operations that wait for the thread of the Janus context. -/
def Op.awaitsContext : Op → Bool
  | sendTemporary _ => true
  | waitForTransaction _ => true
  | _ => false

/-- What the database, the session store and Janus answer while a request is handled. -/
structure World where
  sendQuery : String → String → Option (List Row)
  newSession : String → Option String
  validateSession : String → Bool
  getUsernameByToken : String → Option String
  getPath : String
  sendTemporary : JanusRequest → Option String
  waitForTransaction : String → Option ResponseMessage

def World.answer (w : World) : (o : Op) → o.Ans
  | .sendQuery sql param => w.sendQuery sql param
  | .newSession username => w.newSession username
  | .validateSession token => w.validateSession token
  | .getUsernameByToken token => w.getUsernameByToken token
  | .getPath => w.getPath
  | .sendTemporary request => w.sendTemporary request
  | .waitForTransaction transaction => w.waitForTransaction transaction

/-- A coroutine of a request. -/
abbrev Handler (α : Type) : Type := Prog Op Op.Ans Exception α

namespace Handler

def sendQuery (sql param : String) : Handler (Option (List Row)) :=
  .perform (Op.sendQuery sql param)

def newSession (username : String) : Handler (Option String) := .perform (Op.newSession username)

def validateSession (token : String) : Handler Bool := .perform (Op.validateSession token)

def getUsernameByToken (token : String) : Handler (Option String) :=
  .perform (Op.getUsernameByToken token)

def getPath : Handler String := .perform Op.getPath

def sendTemporary (request : JanusRequest) : Handler (Option String) :=
  .perform (Op.sendTemporary request)

def waitForTransaction (transaction : String) : Handler (Option ResponseMessage) :=
  .perform (Op.waitForTransaction transaction)

/-- A computation that asks for nothing. -/
def lift {α : Type} (x : Outcome Exception α) : Handler α := .done x

section

variable {α : Type} (w : World) (s t : String) (r : JanusRequest)

@[simp] theorem run_sendQuery : (sendQuery s t).run w.answer = .ok (w.sendQuery s t) := rfl
@[simp] theorem run_newSession : (newSession s).run w.answer = .ok (w.newSession s) := rfl
@[simp] theorem run_validateSession :
    (validateSession s).run w.answer = .ok (w.validateSession s) := rfl
@[simp] theorem run_getUsernameByToken :
    (getUsernameByToken s).run w.answer = .ok (w.getUsernameByToken s) := rfl
@[simp] theorem run_getPath : getPath.run w.answer = .ok w.getPath := rfl
@[simp] theorem run_sendTemporary : (sendTemporary r).run w.answer = .ok (w.sendTemporary r) := rfl
@[simp] theorem run_waitForTransaction :
    (waitForTransaction s).run w.answer = .ok (w.waitForTransaction s) := rfl
@[simp] theorem run_lift (x : Outcome Exception α) : (lift x).run w.answer = x := rfl

end

/-- One operation with its answer. -/
abbrev Event : Type := Prog.Event Op Op.Ans

def queried (sql param : String) (rows : Option (List Row)) : Event := ⟨.sendQuery sql param, rows⟩

def issued (username : String) (token : Option String) : Event := ⟨.newSession username, token⟩

def validated (token : String) (valid : Bool) : Event := ⟨.validateSession token, valid⟩

def owned (token : String) (owner : Option String) : Event := ⟨.getUsernameByToken token, owner⟩

def located (path : String) : Event := ⟨.getPath, path⟩

def sent (request : JanusRequest) (body : Option String) : Event := ⟨.sendTemporary request, body⟩

def waited (transaction : String) (message : Option ResponseMessage) : Event :=
  ⟨.waitForTransaction transaction, message⟩

section

variable {α : Type} {G : List Event → Op → Prop} {past : List Event} (s t : String)
  (r : JanusRequest)

theorem wp_sendQuery {Q : List Event → Outcome Exception (Option (List Row)) → Prop} :
    (sendQuery s t).wp G Q past ↔
      G past (.sendQuery s t) ∧ ∀ rows, Q (past ++ [queried s t rows]) (.ok rows) := Iff.rfl

theorem wp_newSession {Q : List Event → Outcome Exception (Option String) → Prop} :
    (newSession s).wp G Q past ↔
      G past (.newSession s) ∧ ∀ token, Q (past ++ [issued s token]) (.ok token) := Iff.rfl

theorem wp_validateSession {Q : List Event → Outcome Exception Bool → Prop} :
    (validateSession s).wp G Q past ↔
      G past (.validateSession s) ∧ ∀ valid, Q (past ++ [validated s valid]) (.ok valid) := Iff.rfl

theorem wp_getUsernameByToken {Q : List Event → Outcome Exception (Option String) → Prop} :
    (getUsernameByToken s).wp G Q past ↔
      G past (.getUsernameByToken s) ∧ ∀ owner, Q (past ++ [owned s owner]) (.ok owner) := Iff.rfl

theorem wp_getPath {Q : List Event → Outcome Exception String → Prop} :
    getPath.wp G Q past ↔ G past .getPath ∧ ∀ path, Q (past ++ [located path]) (.ok path) := Iff.rfl

theorem wp_sendTemporary {Q : List Event → Outcome Exception (Option String) → Prop} :
    (sendTemporary r).wp G Q past ↔
      G past (.sendTemporary r) ∧ ∀ body, Q (past ++ [sent r body]) (.ok body) := Iff.rfl

theorem wp_waitForTransaction
    {Q : List Event → Outcome Exception (Option ResponseMessage) → Prop} :
    (waitForTransaction s).wp G Q past ↔ G past (.waitForTransaction s) ∧
      ∀ message, Q (past ++ [waited s message]) (.ok message) := Iff.rfl

theorem wp_lift {x : Outcome Exception α} {Q : List Event → Outcome Exception α → Prop} :
    (lift x).wp G Q past ↔ Q past x := Iff.rfl

end

end Handler

open Handler

/-! ## `user_repository` -/

/-- `field_view::as_string`. -/
def asString : Option String → Outcome Exception String
  | some s => .ok s
  | none => .throws .badFieldAccess

/-- `user_repository::construct_user_from_result`. The columns are read outside of the `try`. -/
def constructUserFromResult : List Row → Outcome Exception (Option User)
  | [] => .ok none
  | row :: _ => do
    let username ← asString row.username
    let password ← asString row.password
    match User.new row.id username password with
    | .ok user => pure (some user)
    | .throws _ => pure none
    | .undefined => .undefined

/-- The rows `construct_user_from_result` makes a user of: the first one has no NULL and passes
`validate_user`. -/
def Resolves (rows : List Row) (user : User) : Prop :=
  ∃ rest, rows = ⟨user.id, some user.username, some user.password⟩ :: rest ∧ user.Valid

/-- The first row has a NULL where a string is read. -/
def NullCredentials (rows : List Row) : Prop :=
  ∃ row rest, rows = row :: rest ∧ (row.username = none ∨ row.password = none)

theorem Resolves.not_null {rows : List Row} {user : User} (resolves : Resolves rows user) :
    ¬ NullCredentials rows := by
  rintro ⟨row, rest, split, null⟩
  obtain ⟨rest', split', -⟩ := resolves
  rw [split'] at split
  obtain ⟨rfl, -⟩ := List.cons.inj split
  rcases null with null | null <;> cases null

theorem constructUserFromResult_cases (rows : List Row) :
    (∃ user, constructUserFromResult rows = .ok (some user) ∧ Resolves rows user) ∨
      (constructUserFromResult rows = .ok none ∧ ¬ NullCredentials rows ∧
        ∀ user, ¬ Resolves rows user) ∨
      (constructUserFromResult rows = .throws .badFieldAccess ∧ NullCredentials rows) := by
  rcases rows with _ | ⟨⟨id, username, password⟩, rest⟩
  · refine Or.inr (Or.inl ⟨rfl, ?_, ?_⟩)
    · rintro ⟨row, rest, empty, -⟩
      cases empty
    · rintro user ⟨rest, empty, -⟩
      cases empty
  · cases username with
    | none => exact Or.inr (Or.inr ⟨rfl, _, rest, rfl, Or.inl rfl⟩)
    | some username =>
      cases password with
      | none => exact Or.inr (Or.inr ⟨rfl, _, rest, rfl, Or.inr rfl⟩)
      | some password =>
        cases built : User.new id username password with
        | ok user =>
          obtain ⟨rfl, valid⟩ := User.new_eq_ok.1 built
          refine Or.inl ⟨_, ?_, rest, rfl, valid⟩
          simp [constructUserFromResult, asString, built]
        | throws e =>
          refine Or.inr (Or.inl ⟨by simp [constructUserFromResult, asString, built], ?_, ?_⟩)
          · rintro ⟨row, rest', split, null⟩
            obtain ⟨rfl, rfl⟩ := List.cons.inj split
            rcases null with null | null <;> cases null
          · rintro user ⟨rest', split, valid⟩
            have same : user = ⟨id, username, password⟩ := by
              obtain ⟨id', username', password'⟩ := user
              simp_all
            rw [User.new_eq_ok.2 ⟨same, valid⟩] at built
            cases built
        | undefined => exact absurd built (User.new_ne_undefined id username password)

/-- A row is turned into a user exactly when it resolves to that user. -/
theorem constructUserFromResult_eq_some {rows : List Row} {user : User} :
    constructUserFromResult rows = .ok (some user) ↔ Resolves rows user := by
  constructor
  · intro built
    rcases constructUserFromResult_cases rows with ⟨user', built', resolves⟩ | ⟨none, -⟩ | ⟨bad, -⟩
    · rw [built] at built'
      cases built'
      exact resolves
    · rw [built] at none
      cases none
    · rw [built] at bad
      cases bad
  · rintro ⟨rest, rfl, valid⟩
    have built := User.new_eq_ok.2 ⟨rfl, valid⟩
    simp [constructUserFromResult, asString, built]

/-- The statement of `find_user_by_username`. -/
def selectByUsername : String := "SELECT * FROM `users` WHERE users.username = ?"

/-- `user_repository::find_user_by_username`. -/
def findUserByUsername (username : String) : Handler (Option User) := do
  let result ← sendQuery selectByUsername username
  match result with
  | none => pure none
  | some rows => lift (constructUserFromResult rows)

/-! ## `janus_repository` -/

variable (lib : Nlohmann) (sha : Sha256) (host : String)

/-- `janus::send_request`: the reply on the temporary connection, or after an `ack` the event
that ends up in the response buffer. -/
def sendRequest (request : JanusRequest) : Handler (Option ResponseMessage) := do
  let result ← sendTemporary request
  match result with
  | none => pure none
  | some body =>
    match ResponseMessage.parseJson lib body with
    | .ok msg =>
      if msg.eventType = "ack" then waitForTransaction msg.transaction
      else pure (some msg)
    | .throws _ => pure none
    | .undefined => lift .undefined

/-- A request on the path of the video room. -/
def sendToVideoRoom (type : RequestType) (json : String) : Handler (Option ResponseMessage) := do
  let path ← getPath
  let request ← lift (RequestMapper.getRequest type (some json) host path)
  sendRequest lib request

/-- `janus_repository::create_video_meeting`. -/
def createVideoMeeting : Handler (Option ResponseMessage) :=
  sendToVideoRoom lib host .createRoom (CreateRoomRequest.new.toJson lib)

/-- `janus_repository::list_participants`. -/
def listRoomParticipants (body : String) : Handler (Option ResponseMessage) := do
  let msgRequest ← lift (ListParticipantsRequest.new lib body)
  sendToVideoRoom lib host .listMeetingParticipants (msgRequest.toJson lib)

/-! ## `user_service` -/

/-- The body of a successful login. -/
def loginReply (token : String) : String :=
  "\x7b\"action\": \"succesful\",\"token\": \"" ++ token ++ "\"\x7d"

/-- `user_service::log_in_user`. -/
def logInUser (requestBodyJson : String) : Handler (Option String) := do
  let temp := User.ofJson lib sha requestBodyJson
  let result ← findUserByUsername temp.username
  match result with
  | none => pure none
  | some fetchedUser =>
    if temp.password = fetchedUser.password then do
      let token ← newSession fetchedUser.username
      match token with
      | none => pure none
      | some token => pure (some (loginReply token))
    else pure none

/-- The gate `create_meeting` and `list_participants` share: a valid session, its owner, and
the owner's row; only then `action`. -/
def withSession (token : String) (action : Handler (Option String)) : Handler (Option String) := do
  let valid ← validateSession token
  match valid with
  | false => pure none
  | true =>
    let username ← getUsernameByToken token
    match username with
    | none => pure none
    | some username =>
      let user ← findUserByUsername username
      match user with
      | none => pure none
      | some _ => action

/-- What both do behind the gate: ask Janus, parse its answer and print it for the client. -/
def answeredBy {α : Type} (ask : Handler (Option ResponseMessage))
    (parse : String → Outcome Exception α) (print : α → String) : Handler (Option String) := do
  let janusResponse ← ask
  match janusResponse with
  | none => pure none
  | some response => do
    let msgResponse ← lift (parse response.body)
    pure (some (print msgResponse))

/-- The part of `create_meeting` behind the gate. -/
def meetingReply : Handler (Option String) :=
  answeredBy (createVideoMeeting lib host) (UserCreateVideoResponse.new lib) (·.toJson lib)

/-- `user_service::create_meeting`. -/
def createMeeting (token : String) : Handler (Option String) :=
  withSession token (meetingReply lib host)

/-- The part of `list_participants` behind the gate. -/
def listingReply (body : String) : Handler (Option String) :=
  answeredBy (listRoomParticipants lib host body) (ListParticipantsResponse.new lib) (·.toJson lib)

/-- `user_service::list_participants`. -/
def listParticipants (token body : String) : Handler (Option String) :=
  withSession token (listingReply lib host body)

end Lynks
