import Lynks.Lib.Expansion
import Lynks.Network.Contents
import Lynks.Network.Login

/-!
# A conversation

The other half of the script: the answers that entitle a handler to a 200 are also enough for
one (`handleRequest_after_turn`). So in every state that can be reached a client with the
password of a user can log in while there is room, and is then served whatever it asks of the
video room and however often, as long as it does not wait five minutes in between
(`conversation_served`). Nobody else's session or request changes.
-/

namespace Lynks
set_option autoImplicit false

open Lib Janus Handler

variable {lib : Nlohmann} {sha : Sha256} {host : String}

/-! ## What a handler does with good answers -/

theorem answered_bind {α : Type} (o : Op) (f : o.Ans → Handler α) (a : o.Ans) (es : List Event) :
    (Prog.perform o >>= f).after (⟨o, a⟩ :: es) = (f a).after es := Prog.after_act o f a es

theorem findUserByUsername_after {username : String} {rows : List Row} {user : User}
    (resolves : Resolves rows user) :
    (findUserByUsername username).after [queried selectByUsername username (some rows)] =
      some (.done (.ok (some user))) := by
  refine (answered_bind (Op.sendQuery selectByUsername username) _ (some rows) []).trans ?_
  change some (lift (constructUserFromResult rows)) = _
  rw [constructUserFromResult_eq_some.2 resolves]
  rfl

/-- A direct answer is passed on. -/
theorem sendRequest_after {message : JanusRequest} {text : String} {reply : ResponseMessage}
    (parsed : ResponseMessage.parseJson lib text = .ok reply) (direct : reply.eventType ≠ "ack") :
    (sendRequest lib message).after [sent message (some text)] =
      some (.done (.ok (some reply))) := by
  refine (answered_bind (Op.sendTemporary message) _ (some text) []).trans ?_
  simp [parsed, direct]

theorem sendToVideoRoom_after {type : RequestType} {json path text : String}
    {reply : ResponseMessage}
    (posted : RequestMapper.getRequest type (some json) host path =
      .ok (RequestMapper.postRequest type json host path))
    (parsed : ResponseMessage.parseJson lib text = .ok reply) (direct : reply.eventType ≠ "ack") :
    (sendToVideoRoom lib host type json).after
        [located path, sent (RequestMapper.postRequest type json host path) (some text)] =
      some (.done (.ok (some reply))) := by
  refine (answered_bind Op.getPath _ path _).trans ?_
  rw [posted]
  exact sendRequest_after parsed direct

theorem answeredBy_after {α : Type} {ask : Handler (Option ResponseMessage)}
    {parse : String → Outcome Exception α} {print : α → String} {es : List Event}
    {reply : ResponseMessage} {a : α} (asked : ask.after es = some (.done (.ok (some reply))))
    (read : parse reply.body = .ok a) :
    (answeredBy ask parse print).after es = some (.done (.ok (some (print a)))) := by
  unfold answeredBy
  rw [← List.append_nil es]
  refine (Prog.after_bind asked []).trans ?_
  simp only [Prog.after_nil, lift, read]
  rfl

/-- Behind the gate the action goes on. -/
theorem withSession_after {token username : String} {rows : List Row} {user : User}
    {action : Handler (Option String)} {es : List Event} (resolves : Resolves rows user) :
    (withSession token action).after (gateEvents token username rows ++ es) = action.after es := by
  refine (answered_bind (Op.validateSession token) _ true _).trans ?_
  refine (answered_bind (Op.getUsernameByToken token) _ (some username) _).trans ?_
  exact Prog.after_bind (findUserByUsername_after resolves) es

theorem withToken_after {request : HttpRequest} {token text : String}
    {service : String → Handler (Option String)} {es : List Event}
    (header : request.authorization = some token)
    (served : (service token).after es = some (.done (.ok (some text)))) :
    (Router.withToken request service).after es =
      some (.done (.ok (Router.succesfulRequest request text))) := by
  unfold Router.withToken HttpRequest.atAuthorization
  rw [header]
  apply Prog.after_catchAll
  have rest := Prog.after_bind (f := fun result => pure (Router.reply request result)) served []
  rwa [List.append_nil] at rest

/-- What a handler on the video room is told when all goes well. -/
def answeredPast (token username : String) (rows : List Row) (path : String)
    (message : JanusRequest) (text : String) : List Event :=
  gateEvents token username rows ++ [located path, sent message (some text)]

/-- **Good answers are enough.** A handler that is told what the script asks for replies with the
verdict, if there is one. -/
theorem handleRequest_after_turn {request : HttpRequest} {token username path text reply : String}
    {rows : List Row} {user : User} {message : JanusRequest} (endpoint : request.AsksJanus)
    (header : request.authorization = some token) (resolves : Resolves rows user)
    (named : outgoing lib host request path = some message)
    (judged : verdict lib request (answeredPast token username rows path message text) =
      some reply) :
    (Router.handleRequest lib sha host request).after
        (answeredPast token username rows path message text) =
      some (.done (.ok (Router.succesfulRequest request reply))) := by
  have last : told lib (answeredPast token username rows path message text) =
      ((ResponseMessage.parseJson lib text).value?).filter fun m => m.eventType ≠ "ack" :=
    told_sent (gateEvents token username rows ++ [located path]) message (some text)
  have direct {response : ResponseMessage}
      (got : told lib (answeredPast token username rows path message text) = some response) :
      ResponseMessage.parseJson lib text = .ok response ∧ response.eventType ≠ "ack" := by
    rw [last, Option.filter_eq_some_iff] at got
    exact ⟨Outcome.value?_eq_some.1 got.1, by simpa using got.2⟩
  unfold Router.handleRequest Router.routeRequest
  rcases endpoint with create | list
  · simp only [verdict, create] at judged
    obtain ⟨response, got, printed⟩ := Option.bind_eq_some_iff.1 judged
    obtain ⟨r, made, rfl⟩ := Option.map_eq_some_iff.1 printed
    simp only [outgoing, create, if_true, Option.some.injEq] at named
    subst named
    simp only [create, String.reduceEq, if_false, if_true]
    apply withToken_after header
    refine (withSession_after resolves).trans ?_
    exact answeredBy_after (sendToVideoRoom_after rfl (direct got).1 (direct got).2)
      (Outcome.value?_eq_some.1 made)
  · simp only [verdict, list] at judged
    obtain ⟨response, got, printed⟩ := Option.bind_eq_some_iff.1 judged
    obtain ⟨r, made, rfl⟩ := Option.map_eq_some_iff.1 printed
    simp only [outgoing, list] at named
    obtain ⟨msgRequest, read, rfl⟩ := Option.map_eq_some_iff.1 named
    simp only [list, String.reduceEq, if_false, if_true]
    apply withToken_after header
    refine (withSession_after resolves).trans ?_
    refine answeredBy_after ?_ (Outcome.value?_eq_some.1 made)
    unfold listRoomParticipants
    rw [Outcome.value?_eq_some.1 read]
    exact sendToVideoRoom_after rfl (direct got).1 (direct got).2

/-- A login with the password of the user found replies with the token it is given. -/
theorem handleRequest_after_login {request : HttpRequest} {username password token : String}
    {rows : List Row} {user : User} (login : request.target = "/login")
    (credentials : Credentials lib request.body username password) (resolves : Resolves rows user)
    (same : user.password = hash256 sha password) :
    (Router.handleRequest lib sha host request).after
        [queried selectByUsername username (some rows), issued user.username (some token)] =
      some (.done (.ok (Router.succesfulRequest request (loginReply token)))) := by
  have served : (logInUser lib sha request.body).after
      ([queried selectByUsername username (some rows)] ++ [issued user.username (some token)]) =
        some (.done (.ok (some (loginReply token)))) := by
    unfold logInUser
    rw [ofJson_of_credentials credentials]
    rw [Prog.after_bind (findUserByUsername_after resolves)]
    simp only [same, if_true]
    exact answered_bind (Op.newSession user.username) _ (some token) []
  unfold Router.handleRequest Router.routeRequest Router.loginUser
  rw [if_pos login]
  have rest := Prog.after_bind
    (f := fun result => (pure (Router.reply request result) : Handler HttpResponse)) served []
  rwa [List.append_nil] at rest

/-! ## What the store does with a session in use -/

/-- A reading at which a session renewed at `since` is active. -/
def InTime (since now : UInt64) : Prop :=
  since.toNat ≤ now.toNat ∧ now.toNat < since.toNat + 300000

theorem InTime.active {token owner : String} {since now : UInt64} (soon : InTime since now) :
    SessionToken.isActive ⟨token, owner, since⟩ now = true :=
  (SessionToken.isActive_iff (t := ⟨token, owner, since⟩) soon.1).2 soon.2

namespace SessionHandler

variable {store : SessionHandler} {before after : List SessionToken} {token owner : String}
  {since now refreshed : UInt64}

/-- The session of the token in use: it is the first with this token. -/
structure Holds (store : SessionHandler) (before after : List SessionToken) (token owner : String)
    (since : UInt64) : Prop where
  stored : store.sessions = before ++ ⟨token, owner, since⟩ :: after
  first : ∀ session ∈ before, session.token ≠ token

theorem findTokenIn_append (first : ∀ session ∈ before, session.token ≠ token)
    (active : SessionToken.isActive ⟨token, owner, since⟩ now = true) :
    findTokenIn token now refreshed (before ++ ⟨token, owner, since⟩ :: after) =
      (before ++ ⟨token, owner, refreshed⟩ :: after, true) := by
  induction before with
  | nil => simp [findTokenIn, SessionToken.validateToken, active, SessionToken.updateLife]
  | cons session before ih =>
    have other : token ≠ session.token := (first session (by simp)).symm
    simp [findTokenIn, other, ih fun session mem => first session (by simp [mem])]

/-- A check in time renews the session and leaves the others. -/
theorem Holds.validated (holds : Holds store before after token owner since)
    (soon : InTime since now) :
    ∃ store', storeAfter store now refreshed (validated token true) = some store' ∧
      Holds store' before after token owner refreshed := by
  have renewed : findTokenIn token now refreshed store.sessions =
      (before ++ ⟨token, owner, refreshed⟩ :: after, true) := by
    rw [holds.stored]
    exact findTokenIn_append holds.first soon.active
  refine ⟨(store.validateSession token now refreshed).1, ?_, ?_, holds.first⟩
  · refine storeAfter_of_answer rfl ?_ rfl
    exact congrArg (Answer.valid ·.2) renewed
  · exact congrArg Prod.fst renewed

/-- And its owner is found. -/
theorem Holds.owned (holds : Holds store before after token owner since)
    (soon : InTime since now) :
    storeAfter store now refreshed (owned token (some owner)) = some store := by
  have found : store.sessions.find? (fun t => token = t.token) = some ⟨token, owner, since⟩ := by
    rw [holds.stored, List.find?_append]
    have none : before.find? (fun t => token = t.token) = none :=
      List.find?_eq_none.2 fun t mem => by simpa using (holds.first t mem).symm
    simp [none]
  refine storeAfter_of_answer rfl ?_ rfl
  have answered : store.getUsernameByToken token now = some owner := by
    simp [getUsernameByToken, found, soon.active]
  exact congrArg Answer.username answered

/-- A login with room and a token of its own opens such a session, behind the others. -/
theorem holds_of_issued (room : store.sessions.length < store.maxSessions.toNat)
    (fresh : ∀ session ∈ store.sessions, session.token ≠ token) :
    ∃ store', storeAfter store now refreshed (Handler.issued owner (some token)) = some store' ∧
      Holds store' store.sessions [] token owner now := by
  obtain ⟨drawn, appended⟩ := newSession_room owner token now room
  refine ⟨(store.newSession owner token now).1, ?_, appended, fresh⟩
  refine storeAfter_of_answer rfl ?_ rfl
  exact congrArg Answer.token drawn

end SessionHandler

/-! ## The conversation -/

/-- An answer, and the readings the store takes with it. -/
structure Answered where
  event : Event
  now : UInt64
  refreshed : UInt64

/-- The store after some answers, if it gives them. -/
def SessionHandler.afterAll (store : SessionHandler) (answers : List Answered) :
    Option SessionHandler :=
  answers.foldlM (fun store answer => storeAfter store answer.now answer.refreshed answer.event)
    store

/-- A request on the video room, what its handler is answered, and the reply. -/
structure Turn where
  request : HttpRequest
  rows : List Row
  path : String
  message : JanusRequest
  /-- what Janus answers -/
  text : String
  /-- when the session is checked, when it is renewed, and when its owner is looked up -/
  checked : UInt64
  renewed : UInt64
  lookedUp : UInt64
  reply : String

namespace Turn

def answers (token owner : String) (turn : Turn) : List Answered :=
  [⟨validated token true, turn.checked, turn.renewed⟩,
    ⟨owned token (some owner), turn.lookedUp, 0⟩,
    ⟨queried selectByUsername owner (some turn.rows), 0, 0⟩, ⟨located turn.path, 0, 0⟩,
    ⟨sent turn.message (some turn.text), 0, 0⟩]

/-- The handler when it has replied. -/
def served (turn : Turn) : InFlight :=
  ⟨turn.request, .done (.ok (Router.succesfulRequest turn.request turn.reply))⟩

/-- The request is on the video room with the token, the owner's row is found, and Janus gives
the message of the request an answer that the client can be told. -/
structure Granted (lib : Nlohmann) (host token owner : String) (turn : Turn) : Prop where
  endpoint : turn.request.AsksJanus
  header : turn.request.authorization = some token
  resolves : ∃ user, Resolves turn.rows user
  named : outgoing lib host turn.request turn.path = some turn.message
  judged : verdict lib turn.request
    (answeredPast token owner turn.rows turn.path turn.message turn.text) = some turn.reply

/-- The clock leaves less than five minutes between a renewal and the next use of the session. -/
def Spaced : UInt64 → List Turn → Prop
  | _, [] => True
  | since, turn :: turns =>
    InTime since turn.checked ∧ InTime turn.renewed turn.lookedUp ∧ Spaced turn.renewed turns

/-- When the session has last been renewed. -/
def lastRenewal (since : UInt64) (turns : List Turn) : UInt64 :=
  turns.foldl (fun _ turn => turn.renewed) since

end Turn

namespace Service

variable {maxSessions : UInt16} {s : Service}

def performedBy (i : Nat) (answer : Answered) : ServiceEvent :=
  .perform i answer.event answer.now answer.refreshed

/-- A handler that is given answers the store admits goes on alone. -/
theorem exec_answers {i : Nat} {f : InFlight} {program : Handler HttpResponse}
    {store : SessionHandler} {answers : List Answered} (found : s.inFlight[i]? = some f)
    (left : f.program.after (answers.map (·.event)) = some program)
    (admitted : s.store.afterAll answers = some store) :
    (service lib sha host maxSessions).exec s (answers.map (performedBy i)) =
      some ⟨store, s.inFlight.set i { f with program }⟩ := by
  induction answers generalizing s f with
  | nil =>
    obtain rfl := Option.some.inj left
    obtain rfl := Option.some.inj admitted
    obtain ⟨len, rfl⟩ := List.getElem?_eq_some_iff.1 found
    change some s = some ⟨s.store, s.inFlight.set i s.inFlight[i]⟩
    rw [List.set_getElem_self]
  | cons answer answers ih =>
    obtain ⟨next, resumed, left⟩ := Option.bind_eq_some_iff.1 left
    obtain ⟨store', first, rest⟩ := Option.bind_eq_some_iff.1 admitted
    have len : i < s.inFlight.length := (List.getElem?_eq_some_iff.1 found).1
    have taken : s.step lib sha host (performedBy i answer) =
        some ⟨store', s.inFlight.set i { f with program := next }⟩ := by
      simp [Service.step, performedBy, found, resumed, first]
    have goesOn := @ih ⟨store', s.inFlight.set i { f with program := next }⟩
      { f with program := next } (List.getElem?_set_self len) left rest
    change (s.step lib sha host (performedBy i answer)).bind _ = _
    rw [taken]
    refine goesOn.trans ?_
    rw [List.set_set]

/-- A request that comes in and is answered alone. -/
theorem exec_request {request : HttpRequest} {response : HttpResponse} {store : SessionHandler}
    {answers : List Answered}
    (left : (Router.handleRequest lib sha host request).after (answers.map (·.event)) =
      some (.done (.ok response)))
    (admitted : s.store.afterAll answers = some store) :
    (service lib sha host maxSessions).exec s
        (.arrive request :: answers.map (performedBy s.inFlight.length)) =
      some ⟨store, s.inFlight ++ [⟨request, .done (.ok response)⟩]⟩ := by
  let f : InFlight := ⟨request, Router.handleRequest lib sha host request⟩
  have found : (s.inFlight ++ [f])[s.inFlight.length]? = some f := by simp
  change (service lib sha host maxSessions).exec ⟨s.store, s.inFlight ++ [f]⟩ _ = _
  rw [exec_answers (s := ⟨s.store, s.inFlight ++ [f]⟩) found left admitted]
  simp [f]

/-- One turn: it is served, and the session is renewed. -/
theorem turn_served {before after : List SessionToken} {token owner : String} {since : UInt64}
    {turn : Turn} (holds : s.store.Holds before after token owner since)
    (granted : turn.Granted lib host token owner) (soon : InTime since turn.checked)
    (still : InTime turn.renewed turn.lookedUp) :
    ∃ store, (service lib sha host maxSessions).exec s (.arrive turn.request ::
        (turn.answers token owner).map (performedBy s.inFlight.length)) =
          some ⟨store, s.inFlight ++ [turn.served]⟩ ∧
      store.Holds before after token owner turn.renewed := by
  obtain ⟨store, checked, renewed⟩ :
      ∃ store, storeAfter s.store turn.checked turn.renewed (validated token true) = some store ∧
        store.Holds before after token owner turn.renewed := holds.validated soon
  obtain ⟨user, resolves⟩ := granted.resolves
  refine ⟨store, ?_, renewed⟩
  apply exec_request
  · exact handleRequest_after_turn granted.endpoint granted.header resolves granted.named
      granted.judged
  · have found : storeAfter store turn.lookedUp 0 (owned token (some owner)) = some store :=
      renewed.owned still
    simp only [SessionHandler.afterAll, Turn.answers, List.foldlM_cons, checked,
      Option.bind_eq_bind, Option.bind_some, found]
    rfl

/-- What happens in some turns, the handler of the first of which is the `i`-th. -/
def turnEvents (token owner : String) : Nat → List Turn → List ServiceEvent
  | _, [] => []
  | i, turn :: turns => (.arrive turn.request :: (turn.answers token owner).map (performedBy i)) ++
      turnEvents token owner (i + 1) turns

/-- **As long as the client goes on it is served.** -/
theorem turns_served {before after : List SessionToken} {token owner : String} {since : UInt64}
    {turns : List Turn} (holds : s.store.Holds before after token owner since)
    (granted : ∀ turn ∈ turns, turn.Granted lib host token owner)
    (spaced : Turn.Spaced since turns) :
    ∃ store, (service lib sha host maxSessions).exec s
        (turnEvents token owner s.inFlight.length turns) =
          some ⟨store, s.inFlight ++ turns.map Turn.served⟩ ∧
      store.Holds before after token owner (Turn.lastRenewal since turns) := by
  induction turns generalizing s since with
  | nil => exact ⟨s.store, by simp [turnEvents, Machine.exec], holds⟩
  | cons turn turns ih =>
    obtain ⟨soon, still, spaced⟩ := spaced
    obtain ⟨store, first, renewed⟩ := turn_served holds (granted turn (by simp)) soon still
    obtain ⟨store', rest, last⟩ := @ih ⟨store, s.inFlight ++ [turn.served]⟩ turn.renewed renewed
      (fun turn mem => granted turn (by simp [mem])) spaced
    refine ⟨store', ?_, last⟩
    rw [turnEvents, Machine.exec_append, first]
    refine Eq.trans ?_ (rest.trans ?_)
    · simp
    · simp

/-- A login, the handler of which is the `i`-th. -/
def loginEvents (i : Nat) (login : HttpRequest) (username owner token : String) (rows : List Row)
    (now : UInt64) : List ServiceEvent :=
  [.arrive login, .perform i (queried selectByUsername username (some rows)) 0 0,
    .perform i (issued owner (some token)) now 0]

/-- The handler of a login when it has replied. -/
def loggedIn (login : HttpRequest) (token : String) : InFlight :=
  ⟨login, .done (.ok (Router.succesfulRequest login (loginReply token)))⟩

theorem login_served {login : HttpRequest} {username password token : String} {rows : List Row}
    {user : User} {now : UInt64} (room : s.store.sessions.length < s.store.maxSessions.toNat)
    (fresh : ∀ session ∈ s.store.sessions, session.token ≠ token)
    (path : login.target = "/login")
    (credentials : Credentials lib login.body username password) (resolves : Resolves rows user)
    (same : user.password = hash256 sha password) :
    ∃ store, (service lib sha host maxSessions).exec s
        (loginEvents s.inFlight.length login username user.username token rows now) =
          some ⟨store, s.inFlight ++ [loggedIn login token]⟩ ∧
      store.Holds s.store.sessions [] token user.username now := by
  obtain ⟨store, opened, holds⟩ :
      ∃ store, storeAfter s.store now 0 (issued user.username (some token)) = some store ∧
        store.Holds s.store.sessions [] token user.username now :=
    SessionHandler.holds_of_issued room fresh
  refine ⟨store, ?_, holds⟩
  have admitted : s.store.afterAll [⟨queried selectByUsername username (some rows), 0, 0⟩,
      ⟨issued user.username (some token), now, 0⟩] = some store := by
    change (storeAfter s.store now 0 (issued user.username (some token))).bind _ = _
    rw [opened]
    rfl
  exact exec_request (handleRequest_after_login path credentials resolves same) admitted

/-- A whole conversation: a login, and what the client asks with its token. -/
def conversation (i : Nat) (login : HttpRequest) (username owner token : String) (rows : List Row)
    (now : UInt64) (turns : List Turn) : List ServiceEvent :=
  loginEvents i login username owner token rows now ++ turnEvents token owner (i + 1) turns

theorem conversation_exec {login : HttpRequest} {username password token : String}
    {rows : List Row} {user : User} {now : UInt64} {turns : List Turn}
    (room : s.store.sessions.length < s.store.maxSessions.toNat)
    (fresh : ∀ session ∈ s.store.sessions, session.token ≠ token)
    (path : login.target = "/login")
    (credentials : Credentials lib login.body username password) (resolves : Resolves rows user)
    (same : user.password = hash256 sha password)
    (granted : ∀ turn ∈ turns, turn.Granted lib host token user.username)
    (spaced : Turn.Spaced now turns) :
    ∃ t, (service lib sha host maxSessions).exec s
        (conversation s.inFlight.length login username user.username token rows now turns) =
          some t ∧
      t.inFlight = s.inFlight ++ loggedIn login token :: turns.map Turn.served ∧
      t.store.sessions =
        s.store.sessions ++ [⟨token, user.username, Turn.lastRenewal now turns⟩] := by
  obtain ⟨store, first, holds⟩ : ∃ store, (service lib sha host maxSessions).exec s _ = _ ∧ _ :=
    login_served room fresh path credentials resolves same
  obtain ⟨store', served, last⟩ : ∃ store', (service lib sha host maxSessions).exec
      ⟨store, s.inFlight ++ [loggedIn login token]⟩ _ = _ ∧ _ := turns_served holds granted spaced
  refine ⟨⟨store', s.inFlight ++ loggedIn login token :: turns.map Turn.served⟩, ?_, rfl,
    last.stored⟩
  rw [conversation, Machine.exec_append, first, Option.bind_some]
  simpa using served

/-- **The conversation works.** In every state that can be reached, with room in the store and a
token not in use: a login with the password of the user found, and then any number of requests on
the video room with the token, each less than five minutes after the last, are all answered 200.
All other requests and sessions are left as they were. -/
theorem conversation_served {es : List ServiceEvent} {login : HttpRequest}
    {username password token : String} {rows : List Row} {user : User} {now : UInt64}
    {turns : List Turn} (run : (service lib sha host maxSessions).Run es s)
    (room : s.store.sessions.length < s.store.maxSessions.toNat)
    (fresh : ∀ session ∈ s.store.sessions, session.token ≠ token)
    (path : login.target = "/login")
    (credentials : Credentials lib login.body username password) (resolves : Resolves rows user)
    (same : user.password = hash256 sha password)
    (granted : ∀ turn ∈ turns, turn.Granted lib host token user.username)
    (spaced : Turn.Spaced now turns) :
    ∃ t, (service lib sha host maxSessions).Run (es ++
        conversation s.inFlight.length login username user.username token rows now turns) t ∧
      t.inFlight = s.inFlight ++ loggedIn login token :: turns.map Turn.served ∧
      t.store.sessions =
        s.store.sessions ++ [⟨token, user.username, Turn.lastRenewal now turns⟩] := by
  obtain ⟨t, ran, answered, stored⟩ : ∃ t, (service lib sha host maxSessions).exec s _ = _ ∧ _ :=
    conversation_exec room fresh path credentials resolves same granted spaced
  refine ⟨t, ?_, answered, stored⟩
  rw [Machine.Run, Machine.exec_append, run]
  exact ran

def createMessage : JanusRequest :=
  RequestMapper.postRequest .createRoom (CreateRoomRequest.new.toJson dumpLib) "janus" "/janus/1/2"

/-- What the client is told of it. -/
def createdReply : String :=
  dumpLib.dump (.object [("action", .string "success"), ("room_id", .unsigned 5)])

theorem verdict_created : verdict dumpLib ⟨"/create", 11, some "a1", ""⟩
    (answeredPast "a1" "alice" [aliceRow] "/janus/1/2" createMessage createdText) =
      some createdReply := by rfl

/-- A room created at a time. -/
def createTurn (now : UInt64) : Turn where
  request := ⟨"/create", 11, some "a1", ""⟩
  rows := [aliceRow]
  path := "/janus/1/2"
  message := createMessage
  text := createdText
  checked := now
  renewed := now
  lookedUp := now
  reply := createdReply

theorem aliceRow_resolves : Resolves [aliceRow] ⟨1, "alice", hash256 constantSha "secret"⟩ :=
  ⟨[], rfl, by decide, by decide, hash256_length _ _⟩

theorem createTurn_granted (now : UInt64) :
    (createTurn now).Granted dumpLib "janus" "a1" "alice" where
  endpoint := Or.inl rfl
  header := rfl
  resolves := ⟨_, aliceRow_resolves⟩
  named := rfl
  judged := verdict_created

def aliceLogin : HttpRequest :=
  ⟨"/login", 11, none, "\x7b\"password\":\"secret\",\"username\":\"alice\"\x7d"⟩

theorem aliceLogin_target : aliceLogin.target = "/login" := rfl

theorem aliceLogin_credentials : Credentials dumpLib aliceLogin.body "alice" "secret" :=
  ⟨.object [("password", .string "secret"), ("username", .string "alice")],
    by rfl, by rfl, by rfl⟩

/-- Alice logs in while another request waits, and creates a room twice, more than five minutes
after her login the second time. -/
theorem conversation_served_createTurns :
    ∃ t, (service dumpLib constantSha "janus" 10).Run
        ([.arrive ⟨"/create", 11, some "zz", ""⟩] ++
          conversation 1 aliceLogin "alice" "alice" "a1" [aliceRow] 1000
            [createTurn 200000, createTurn 400000]) t ∧
      t.store.sessions = [⟨"a1", "alice", 400000⟩] := by
  obtain ⟨s, run, waiting, room, empty⟩ : ∃ s, (service dumpLib constantSha "janus" 10).Run
      [.arrive ⟨"/create", 11, some "zz", ""⟩] s ∧ s.inFlight.length = 1 ∧
      s.store.sessions.length < s.store.maxSessions.toNat ∧ s.store.sessions = [] :=
    ⟨_, rfl, rfl, by decide, rfl⟩
  have granted : ∀ turn ∈ [createTurn 200000, createTurn 400000],
      turn.Granted dumpLib "janus" "a1" "alice" := by
    simp [createTurn_granted]
  have spaced : Turn.Spaced 1000 [createTurn 200000, createTurn 400000] := by
    simp [Turn.Spaced, InTime, createTurn]
  obtain ⟨t, served, -, stored⟩ := conversation_served run room (by simp [empty])
    aliceLogin_target aliceLogin_credentials aliceRow_resolves rfl granted spaced
  rw [waiting] at served
  rw [empty] at stored
  exact ⟨t, served, stored⟩

end Service

end Lynks
