import Lynks.Network.Server

/-!
# Which requests get a reply

How `handle_request` ends for every request, whatever the database, the session store and
Janus answer, and what `on_request` then queues for the client. `createMeeting` always ends in
a reply. `loginUser` lets the exception of a NULL column escape, and `listParticipants` runs
into undefined behaviour on a participant without `publisher`; nothing else goes wrong
(`one_response_iff`).
-/

namespace Lynks
set_option autoImplicit false

open Lib Janus Handler

variable {lib : Nlohmann} {sha : Sha256} {host : String} {w : World}

/-! ## The repositories -/

theorem findUserByUsername_run (username : String) :
    (findUserByUsername username).run w.answer =
      match w.sendQuery selectByUsername username with
      | none => .ok none
      | some rows => constructUserFromResult rows := by
  unfold findUserByUsername
  rw [Prog.run_bind, run_sendQuery, Outcome.ok_bind]
  cases w.sendQuery selectByUsername username <;> rfl

/-- The lookup of a user: found, not found, or a NULL column. -/
theorem findUserByUsername_cases (username : String) :
    (∃ rows user, w.sendQuery selectByUsername username = some rows ∧ Resolves rows user ∧
        (findUserByUsername username).run w.answer = .ok (some user)) ∨
      ((findUserByUsername username).run w.answer = .ok none ∧
        ∀ rows, w.sendQuery selectByUsername username = some rows →
          ¬ NullCredentials rows ∧ ∀ user, ¬ Resolves rows user) ∨
      ((findUserByUsername username).run w.answer = .throws .badFieldAccess ∧
        ∃ rows, w.sendQuery selectByUsername username = some rows ∧ NullCredentials rows) := by
  rw [findUserByUsername_run]
  cases query : w.sendQuery selectByUsername username with
  | none => exact Or.inr (Or.inl ⟨rfl, by simp⟩)
  | some rows =>
    rcases constructUserFromResult_cases rows with ⟨user, built, resolves⟩ | ⟨built, rest⟩ |
      ⟨built, null⟩
    · exact Or.inl ⟨rows, user, rfl, resolves, built⟩
    · refine Or.inr (Or.inl ⟨built, fun rows' same => ?_⟩)
      exact Option.some.inj same ▸ rest
    · exact Or.inr (Or.inr ⟨built, rows, rfl, null⟩)

/-- What `send_request` makes of Janus's answers: the reply, or after an `ack` the event. -/
def janusAnswer (lib : Nlohmann) (w : World) (request : JanusRequest) : Option ResponseMessage :=
  (w.sendTemporary request).bind fun body =>
    (ResponseMessage.parseJson lib body).value?.bind fun msg =>
      if msg.eventType = "ack" then w.waitForTransaction msg.transaction else some msg

theorem sendRequest_run (request : JanusRequest) :
    (sendRequest lib request).run w.answer = .ok (janusAnswer lib w request) := by
  unfold sendRequest janusAnswer
  rw [Prog.run_bind, run_sendTemporary, Outcome.ok_bind]
  cases w.sendTemporary request with
  | none => rfl
  | some body =>
    cases parsed : ResponseMessage.parseJson lib body with
    | ok msg => by_cases ack : msg.eventType = "ack" <;> simp [parsed, ack, Outcome.value?]
    | throws e => simp [parsed, Outcome.value?]
    | undefined => exact absurd parsed (ResponseMessage.parseJson_ne_undefined body)

theorem createVideoMeeting_run :
    (createVideoMeeting lib host).run w.answer =
      .ok (janusAnswer lib w
        (RequestMapper.postRequest .createRoom (CreateRoomRequest.new.toJson lib) host
          w.getPath)) := by
  simp [createVideoMeeting, sendToVideoRoom, sendRequest_run, RequestMapper.getRequest,
    RequestMapper.setUpStandardPostRequest]

/-- What Janus answers to the listing of a room. -/
def listingAnswer (lib : Nlohmann) (host : String) (w : World) (request : ListParticipantsRequest) :
    Option ResponseMessage :=
  janusAnswer lib w (RequestMapper.postRequest .listMeetingParticipants (request.toJson lib) host
    w.getPath)

theorem listRoomParticipants_run (body : String) :
    (listRoomParticipants lib host body).run w.answer =
      ListParticipantsRequest.new lib body >>= fun request =>
        .ok (listingAnswer lib host w request) := by
  simp [listRoomParticipants, sendToVideoRoom, sendRequest_run, RequestMapper.getRequest,
    RequestMapper.setUpStandardPostRequest, listingAnswer]

/-! ## The service -/

/-- The session and the database let the request through. -/
def Authorised (w : World) (token : String) : Prop :=
  w.validateSession token = true ∧ ∃ username rows user,
    w.getUsernameByToken token = some username ∧
    w.sendQuery selectByUsername username = some rows ∧ Resolves rows user

/-- The gate leads to undefined behaviour only through the action behind it. -/
theorem withSession_undefined (token : String) (action : Handler (Option String)) :
    (withSession token action).run w.answer = .undefined ↔
      Authorised w token ∧ action.run w.answer = .undefined := by
  unfold withSession Authorised
  rw [Prog.run_bind, run_validateSession, Outcome.ok_bind]
  cases w.validateSession token with
  | false => simp
  | true =>
    show Prog.run w.answer (getUsernameByToken token >>= _) = _ ↔ _
    rw [Prog.run_bind, run_getUsernameByToken, Outcome.ok_bind]
    cases owner : w.getUsernameByToken token with
    | none => simp
    | some username =>
      show Prog.run w.answer (findUserByUsername username >>= _) = _ ↔ _
      rw [Prog.run_bind]
      rcases findUserByUsername_cases username with
        ⟨rows, user, query, resolves, found⟩ | ⟨missing, nobody⟩ | ⟨escaped, rows, query, null⟩
      · rw [found, Outcome.ok_bind]
        have authorised : ∃ username' rows user, some username = some username' ∧
            w.sendQuery selectByUsername username' = some rows ∧ Resolves rows user :=
          ⟨username, rows, user, rfl, query, resolves⟩
        simp only [true_and, iff_and_self]
        exact fun _ => authorised
      · rw [missing, Outcome.ok_bind]
        have unauthorised : ∀ rows user, w.sendQuery selectByUsername username = some rows →
            ¬ Resolves rows user := fun rows user query => (nobody rows query).2 user
        simpa using fun rows query user resolves =>
          absurd resolves (unauthorised rows user query)
      · rw [escaped, Outcome.throws_bind]
        simp only [reduceCtorEq, false_iff, not_and, true_and]
        rintro ⟨username', rows', user, same, query', resolves⟩
        obtain rfl := Option.some.inj same
        obtain rfl := Option.some.inj (query.symm.trans query')
        exact absurd null resolves.not_null

/-- `log_in_user` returns unless the exception of a NULL column escapes. -/
theorem logInUser_returns (body : String) :
    (∃ result, (logInUser lib sha body).run w.answer = .ok result) ↔
      ¬ ∃ rows, w.sendQuery selectByUsername (User.ofJson lib sha body).username = some rows ∧
        NullCredentials rows := by
  unfold logInUser
  simp only [Prog.run_bind]
  rcases findUserByUsername_cases (User.ofJson lib sha body).username with
    ⟨rows, user, query, resolves, found⟩ | ⟨missing, nobody⟩ | ⟨escaped, rows, query, null⟩
  · rw [found, Outcome.ok_bind]
    have returns : ¬ ∃ rows', w.sendQuery selectByUsername
        (User.ofJson lib sha body).username = some rows' ∧ NullCredentials rows' := by
      rintro ⟨rows', query', null⟩
      obtain rfl := Option.some.inj (query.symm.trans query')
      exact resolves.not_null null
    simp only [returns, not_false_iff, iff_true]
    by_cases same : (User.ofJson lib sha body).password = user.password
    · simp only [same, if_true, Prog.run_bind, run_newSession, Outcome.ok_bind]
      cases w.newSession user.username <;> simp
    · simp [same]
  · rw [missing, Outcome.ok_bind]
    simpa using fun rows query => (nobody rows query).1
  · rw [escaped, Outcome.throws_bind]
    simpa using ⟨rows, query, null⟩

/-! ## The endpoints -/

variable (lib sha host w)

/-- The first row the login query returns has a NULL username or password. -/
def LoginMeetsNull (request : HttpRequest) : Prop :=
  request.target = "/login" ∧ ∃ rows,
    w.sendQuery selectByUsername (User.ofJson lib sha request.body).username = some rows ∧
    NullCredentials rows

/-- An authorised listing with a well-formed body to which Janus answers with a participant
that is an object without `publisher`. -/
def ListingMeetsMissingPublisher (request : HttpRequest) : Prop :=
  request.target = "/list_participants" ∧ ∃ token roomRequest response,
    request.authorization = some token ∧ Authorised w token ∧
    ListParticipantsRequest.new lib request.body = .ok roomRequest ∧
    listingAnswer lib host w roomRequest = some response ∧ MissingPublisher lib response.body

variable {lib sha host w}

theorem loginUser_returns (request : HttpRequest) :
    (∃ r, (Router.loginUser lib sha request).run w.answer = .ok r) ↔
      ¬ ∃ rows, w.sendQuery selectByUsername (User.ofJson lib sha request.body).username =
        some rows ∧ NullCredentials rows := by
  rw [← logInUser_returns]
  unfold Router.loginUser
  rw [Prog.run_bind]
  cases (logInUser lib sha request.body).run w.answer <;> simp

theorem answeredBy_undefined {α : Type} {ask : Handler (Option ResponseMessage)}
    {parse : String → Outcome Exception α} {print : α → String}
    (defined : ask.run w.answer ≠ .undefined) :
    (answeredBy ask parse print).run w.answer = .undefined ↔
      ∃ response, ask.run w.answer = .ok (some response) ∧ parse response.body = .undefined := by
  unfold answeredBy
  rw [Prog.run_bind]
  cases asked : ask.run w.answer with
  | undefined => exact absurd asked defined
  | throws e => simp
  | ok response =>
    rw [Outcome.ok_bind]
    cases response with
    | none => simp
    | some response => simp [Outcome.bind_eq_undefined]

theorem meetingReply_ne_undefined : (meetingReply lib host).run w.answer ≠ .undefined := by
  unfold meetingReply
  rw [Ne, answeredBy_undefined (by simp [createVideoMeeting_run])]
  rintro ⟨response, -, undefined⟩
  exact UserCreateVideoResponse.new_ne_undefined _ undefined

theorem listingReply_undefined (body : String) :
    (listingReply lib host body).run w.answer = .undefined ↔
      ∃ roomRequest response, ListParticipantsRequest.new lib body = .ok roomRequest ∧
        listingAnswer lib host w roomRequest = some response ∧
        MissingPublisher lib response.body := by
  have defined : (listRoomParticipants lib host body).run w.answer ≠ .undefined := by
    rw [listRoomParticipants_run]
    simp [Outcome.bind_eq_undefined, ListParticipantsRequest.new_ne_undefined]
  unfold listingReply
  rw [answeredBy_undefined defined, listRoomParticipants_run]
  simp only [Outcome.bind_eq_ok, Outcome.ok.injEq, ListParticipantsResponse.new_eq_undefined]
  constructor
  · rintro ⟨response, ⟨roomRequest, built, answer⟩, missing⟩
    exact ⟨roomRequest, response, built, answer, missing⟩
  · rintro ⟨roomRequest, response, built, answer, missing⟩
    exact ⟨response, ⟨roomRequest, built, answer⟩, missing⟩

/-- An endpoint that catches every exception replies unless the service is undefined. -/
theorem withToken_returns (request : HttpRequest) (service : String → Handler (Option String)) :
    (∃ r, (Router.withToken request service).run w.answer = .ok r) ↔
      ∀ token, request.authorization = some token → (service token).run w.answer ≠ .undefined := by
  unfold Router.withToken
  rw [Prog.run_catchAll_eq_ok]
  simp only [Prog.run_bind, run_lift]
  unfold HttpRequest.atAuthorization
  cases request.authorization with
  | none => simp
  | some token => simp [Outcome.bind_eq_undefined]

theorem createMeeting_returns (request : HttpRequest) :
    ∃ r, (Router.createMeeting lib host request).run w.answer = .ok r := by
  unfold Router.createMeeting
  rw [withToken_returns]
  intro token _ undefined
  obtain ⟨-, undefined⟩ := (withSession_undefined token _).1 undefined
  exact meetingReply_ne_undefined undefined

theorem listParticipants_returns (request : HttpRequest) :
    (∃ r, (Router.listParticipants lib host request).run w.answer = .ok r) ↔
      ¬ ∃ token roomRequest response, request.authorization = some token ∧ Authorised w token ∧
        ListParticipantsRequest.new lib request.body = .ok roomRequest ∧
        listingAnswer lib host w roomRequest = some response ∧
        MissingPublisher lib response.body := by
  unfold Router.listParticipants
  rw [withToken_returns]
  constructor
  · rintro defined ⟨token, roomRequest, response, header, authorised, built, answer, missing⟩
    apply defined token header
    have listing := (listingReply_undefined _).2 ⟨roomRequest, response, built, answer, missing⟩
    exact (withSession_undefined token _).2 ⟨authorised, listing⟩
  · intro fine token header undefined
    obtain ⟨authorised, listing⟩ := (withSession_undefined token _).1 undefined
    obtain ⟨roomRequest, response, built, answer, missing⟩ := (listingReply_undefined _).1 listing
    exact fine ⟨token, roomRequest, response, header, authorised, built, answer, missing⟩

/-- **How `handle_request` ends.** -/
theorem handleRequest_returns (request : HttpRequest) :
    (∃ r, (Router.handleRequest lib sha host request).run w.answer = .ok r) ↔
      ¬ LoginMeetsNull lib sha w request ∧ ¬ ListingMeetsMissingPublisher lib host w request := by
  unfold Router.handleRequest Router.routeRequest LoginMeetsNull ListingMeetsMissingPublisher
  by_cases login : request.target = "/login"
  · simp [login, loginUser_returns]
  · by_cases create : request.target = "/create"
    · simpa [create] using createMeeting_returns request
    · by_cases list : request.target = "/list_participants"
      · simp [list, listParticipants_returns]
      · simp [login, create, list]

/-! ## The response on the client's connection -/

/-- What the coroutine spawned by `on_request` queues by how `handle_request` ends: the
response; nothing after an exception, which the completion handler logs; anything at all after
undefined behaviour. -/
def Queues (queued : List HttpResponse) : Outcome Exception HttpResponse → Prop
  | .ok response => queued = [response]
  | .throws _ => queued = []
  | .undefined => True

/-- `server_interface::on_request`. A client that is gone is disconnected. -/
def OnRequest (lib : Nlohmann) (sha : Sha256) (host : String) (w : World) (connected : Bool)
    (request : HttpRequest) (queued : List HttpResponse) : Prop :=
  if connected then Queues queued ((Router.handleRequest lib sha host request).run w.answer)
  else queued = []

/-- **A request gets exactly one response unless its client is gone, a login meets a NULL
column, or a listing meets a participant without `publisher`.** -/
theorem one_response_iff (connected : Bool) (request : HttpRequest) :
    (∀ queued, OnRequest lib sha host w connected request queued → ∃ r, queued = [r]) ↔
      connected = true ∧ ¬ LoginMeetsNull lib sha w request ∧
        ¬ ListingMeetsMissingPublisher lib host w request := by
  rw [← handleRequest_returns]
  unfold OnRequest
  cases connected with
  | false => simp
  | true =>
    simp only [if_true, true_and]
    cases (Router.handleRequest lib sha host request).run w.answer with
    | ok r => simp [Queues]
    | throws e => simp [Queues]
    | undefined =>
      simp only [Queues, reduceCtorEq, exists_false, iff_false, not_forall]
      exact ⟨[], trivial, by simp⟩

/-- What a request queues is what the server posts for it: the coroutine that `on_request`
spawns ends as `handle_request` does. -/
theorem OnRequest.posted {s : Server} {owned : OwnedRequest} {c : Connection}
    {queued : List HttpResponse} (found : s.connections[owned.client]? = some c)
    (connected : c.isConnected = true)
    (handled : OnRequest lib sha host w c.isConnected owned.request queued)
    (defined : (Router.handleRequest lib sha host owned.request).run w.answer ≠ .undefined) :
    ∃ t, (s.onRequest owned).finish s.coroutines.length
        ((Router.handleRequest lib sha host owned.request).run w.answer).value? = some t ∧
      t.posted = s.posted ++ queued.map fun r => (owned.client, ⟨owned.number, r⟩) := by
  refine ⟨_, Server.finish_spawned found connected _, ?_⟩
  simp only [OnRequest, connected, if_true] at handled
  cases outcome : (Router.handleRequest lib sha host owned.request).run w.answer with
  | ok r =>
    rw [outcome] at handled
    obtain rfl : queued = [r] := handled
    rfl
  | throws e =>
    rw [outcome] at handled
    obtain rfl : queued = [] := handled
    rfl
  | undefined => exact absurd outcome defined

/-- For a client that is gone nothing is posted. -/
theorem OnRequest.gone {s : Server} {owned : OwnedRequest} {c : Connection}
    {queued : List HttpResponse} (found : s.connections[owned.client]? = some c)
    (closed : c.isConnected = false)
    (handled : OnRequest lib sha host w c.isConnected owned.request queued) :
    (s.onRequest owned).posted = s.posted ∧ queued = [] := by
  simp only [OnRequest, closed, Bool.false_eq_true, if_false] at handled
  exact ⟨by simp [Server.onRequest, found, closed], handled⟩

/-- A login, a JSON library that reads its body, and any hash function. -/
def aliceLogin : HttpRequest :=
  ⟨"/login", 11, none, "\x7b\"username\":\"alice\",\"password\":\"secret\"\x7d"⟩

def aliceLib : Nlohmann where
  parse? s :=
    if s = aliceLogin.body then
      some (.object [("password", .string "secret"), ("username", .string "alice")])
    else none
  dump _ := ""
  castOverflow _ := 0

def zeroSha : Sha256 := ⟨fun _ => Vector.replicate 32 0⟩

/-- A database with a user who has no password. -/
def passwordless : World where
  sendQuery _ param := some (if param = "alice" then [⟨1, some "alice", none⟩] else [])
  newSession _ := none
  validateSession _ := false
  getUsernameByToken _ := none
  getPath := ""
  sendTemporary _ := none
  waitForTransaction _ := none

/-- The login of that user is handled and gets no response. -/
theorem login_unanswered : OnRequest aliceLib zeroSha "janus" passwordless true aliceLogin [] ∧
    ¬ ∀ queued, OnRequest aliceLib zeroSha "janus" passwordless true aliceLogin queued →
      ∃ r, queued = [r] := by
  have unanswered : OnRequest aliceLib zeroSha "janus" passwordless true aliceLogin [] := rfl
  refine ⟨unanswered, fun answered => ?_⟩
  obtain ⟨r, same⟩ := answered [] unanswered
  cases same

end Lynks
