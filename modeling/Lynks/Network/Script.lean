import Lynks.Network.Gate

/-!
# The script of a handler

What a handler asks for and how it ends, as a function of what it has been answered. `Script`
gives the whole past before each operation, so nothing is asked twice and nothing out of
order; `verdict` reads the body of a reply off the last answer. `handleRequest_script` says
that every handler keeps to them, whatever it is answered.
-/

namespace Lynks
set_option autoImplicit false

open Lib Janus Handler

/-- The endpoints that ask Janus. -/
def HttpRequest.AsksJanus (request : HttpRequest) : Prop :=
  request.target = "/create" ∨ request.target = "/list_participants"

/-- The three paths there are. -/
def HttpRequest.Known (request : HttpRequest) : Prop :=
  request.target = "/login" ∨ request.AsksJanus

section

variable (lib : Nlohmann) (sha : Sha256) (host : String)

/-- The message an endpoint sends to Janus on a path, if the request names one. -/
def outgoing (request : HttpRequest) (path : String) : Option JanusRequest :=
  if request.target = "/create" then
    some (RequestMapper.postRequest .createRoom (CreateRoomRequest.new.toJson lib) host path)
  else
    (ListParticipantsRequest.new lib request.body).value?.map fun message =>
      RequestMapper.postRequest .listMeetingParticipants (message.toJson lib) host path

/-- What a handler has been answered when it performs an operation. -/
inductive Script (request : HttpRequest) : List Event → Op → Prop where
  | lookUp (login : request.target = "/login") :
      Script request [] (.sendQuery selectByUsername (User.ofJson lib sha request.body).username)
  | logIn (rows : List Row) (user : User) (login : request.target = "/login")
      (resolves : Resolves rows user)
      (password : (User.ofJson lib sha request.body).password = user.password) :
      Script request
        [queried selectByUsername (User.ofJson lib sha request.body).username (some rows)]
        (.newSession user.username)
  | validate (token : String) (endpoint : request.AsksJanus)
      (header : request.authorization = some token) : Script request [] (.validateSession token)
  | own (token : String) (endpoint : request.AsksJanus)
      (header : request.authorization = some token) :
      Script request [validated token true] (.getUsernameByToken token)
  | resolve (token username : String) (endpoint : request.AsksJanus)
      (header : request.authorization = some token) :
      Script request [validated token true, owned token (some username)]
        (.sendQuery selectByUsername username)
  | locate (token username : String) (rows : List Row) (user : User)
      (endpoint : request.AsksJanus) (header : request.authorization = some token)
      (resolves : Resolves rows user) (named : ∀ path, (outgoing lib host request path).isSome) :
      Script request (gateEvents token username rows) .getPath
  | send (token username : String) (rows : List Row) (user : User) (path : String)
      (message : JanusRequest) (endpoint : request.AsksJanus)
      (header : request.authorization = some token) (resolves : Resolves rows user)
      (named : outgoing lib host request path = some message) :
      Script request (gateEvents token username rows ++ [located path]) (.sendTemporary message)
  | wait (token username : String) (rows : List Row) (user : User) (path : String)
      (message : JanusRequest) (body : String) (ack : ResponseMessage)
      (endpoint : request.AsksJanus) (header : request.authorization = some token)
      (resolves : Resolves rows user) (named : outgoing lib host request path = some message)
      (parsed : ResponseMessage.parseJson lib body = .ok ack) (acked : ack.eventType = "ack") :
      Script request
        (gateEvents token username rows ++ [located path, sent message (some body)])
        (.waitForTransaction ack.transaction)

/-- Janus's answer, if the last thing a handler was told is one: the event waited for, or a
direct reply that is no `ack`. -/
def told (past : List Event) : Option ResponseMessage :=
  match past.getLast? with
  | some ⟨.waitForTransaction _, message⟩ => message
  | some ⟨.sendTemporary _, body⟩ =>
    (Option.bind body fun body => (ResponseMessage.parseJson lib body).value?).filter
      fun message => message.eventType ≠ "ack"
  | _ => none

/-- The token a handler was given, if it was the last thing. -/
def given (past : List Event) : Option String :=
  match past.getLast? with
  | some ⟨.newSession _, token⟩ => token
  | _ => none

/-- The text the service returns after `past`. -/
def verdict (request : HttpRequest) (past : List Event) : Option String :=
  if request.target = "/login" then (given past).map loginReply
  else if request.target = "/create" then
    (told lib past).bind fun message =>
      (UserCreateVideoResponse.new lib message.body).value?.map (·.toJson lib)
  else
    (told lib past).bind fun message =>
      (ListParticipantsResponse.new lib message.body).value?.map (·.toJson lib)

/-- How a handler ends: with the reply to the verdict, with the exception of a NULL column at a
login, or, undefined, at a participant without `publisher`. -/
def Concludes (request : HttpRequest) (past : List Event) : Outcome Exception HttpResponse → Prop
  | .ok response =>
    (request.Known ∧ response = Router.reply request (verdict lib request past)) ∨
      (¬ request.Known ∧ past = [] ∧ response = Router.notFound request)
  | .throws e => request.target = "/login" ∧ e = .badFieldAccess ∧ ∃ rows,
      past = [queried selectByUsername (User.ofJson lib sha request.body).username (some rows)] ∧
      NullCredentials rows
  | .undefined => request.target = "/list_participants" ∧
      ∃ message, told lib past = some message ∧ MissingPublisher lib message.body

end

variable {lib : Nlohmann} {sha : Sha256} {host : String} {request : HttpRequest}
  {past : List Event}

/-! ## The last answer -/

theorem told_waited (past : List Event) (tx : String) (message : Option ResponseMessage) :
    told lib (past ++ [waited tx message]) = message := by
  simp [told, waited]

theorem told_sent (past : List Event) (message : JanusRequest) (body : Option String) :
    told lib (past ++ [sent message body]) =
      (body.bind fun body => (ResponseMessage.parseJson lib body).value?).filter
        fun message => message.eventType ≠ "ack" := by
  simp [told, sent]

theorem given_issued (past : List Event) (username : String) (token : Option String) :
    given (past ++ [issued username token]) = token := by
  simp [given, issued]

/-- The reply tells one token. -/
theorem loginReply_injective {token token' : String} (same : loginReply token = loginReply token') :
    token = token' := by
  have cut (before after : String) (all : before ++ token ++ after = before ++ token' ++ after) :
      token = token' := by
    rwa [String.append_left_inj, String.append_right_inj] at all
  exact cut _ _ same

/-! ## The repositories -/

/-- What a handler gets from Janus is what it was told. -/
def Relays (lib : Nlohmann) (past : List Event) :
    Outcome Exception (Option ResponseMessage) → Prop
  | .ok message => message = told lib past
  | .throws _ => told lib past = none
  | .undefined => False

/-- What the service returns is the verdict; an exception comes without one. -/
def Returns (lib : Nlohmann) (request : HttpRequest) (past : List Event) :
    Outcome Exception (Option String) → Prop
  | .ok text => text = verdict lib request past
  | .throws _ => verdict lib request past = none
  | .undefined => request.target = "/list_participants" ∧
      ∃ message, told lib past = some message ∧ MissingPublisher lib message.body

/-- What comes before Janus is asked says nothing yet. -/
theorem told_gateEvents (token username : String) (rows : List Row) :
    told lib (gateEvents token username rows) = none := by
  simp [told, gateEvents, queried]

section

variable {token username : String} {rows : List Row} {user : User}

theorem sendRequest_script (endpoint : request.AsksJanus)
    (header : request.authorization = some token) (resolves : Resolves rows user) {path : String}
    {message : JanusRequest} (named : outgoing lib host request path = some message) :
    (sendRequest lib message).wp (Script lib sha host request) (Relays lib)
      (gateEvents token username rows ++ [located path]) := by
  unfold sendRequest
  apply Prog.wp_bind
  rw [wp_sendTemporary]
  refine ⟨.send token username rows user path message endpoint header resolves named, ?_⟩
  intro body
  cases body with
  | none =>
    change none = told lib _
    rw [told_sent]
    rfl
  | some body =>
    dsimp only
    cases parsed : ResponseMessage.parseJson lib body with
    | throws e =>
      change none = told lib _
      rw [told_sent]
      simp [parsed, Outcome.value?]
    | undefined => exact absurd parsed (ResponseMessage.parseJson_ne_undefined body)
    | ok ack =>
      by_cases acked : ack.eventType = "ack"
      · simp only [acked, if_true]
        rw [wp_waitForTransaction, List.append_assoc]
        refine ⟨?_, fun answer => (told_waited _ _ answer).symm⟩
        exact .wait token username rows user path message body ack endpoint header resolves named
          parsed acked
      · simp only [acked, if_false]
        change some ack = told lib _
        rw [told_sent]
        simp [parsed, acked, Outcome.value?, Option.filter]

theorem sendToVideoRoom_script (endpoint : request.AsksJanus)
    (header : request.authorization = some token) (resolves : Resolves rows user)
    {type : RequestType} {json : String}
    (built : ∀ path, ∃ message, RequestMapper.getRequest type (some json) host path = .ok message ∧
      outgoing lib host request path = some message) :
    (sendToVideoRoom lib host type json).wp (Script lib sha host request) (Relays lib)
      (gateEvents token username rows) := by
  have named : ∀ path, (outgoing lib host request path).isSome := by
    intro path
    obtain ⟨message, -, same⟩ := built path
    rw [same]
    rfl
  unfold sendToVideoRoom
  apply Prog.wp_bind
  rw [wp_getPath]
  refine ⟨.locate token username rows user endpoint header resolves named, fun path => ?_⟩
  obtain ⟨message, mapped, same⟩ := built path
  apply Prog.wp_bind
  rw [wp_lift, mapped]
  exact sendRequest_script endpoint header resolves same

end

/-- Behind the gate a service returns the text made of Janus's answer. -/
theorem answeredBy_script {α : Type} {ask : Handler (Option ResponseMessage)}
    {parse : String → Outcome Exception α} {print : α → String}
    (judged : ∀ past, verdict lib request past =
      (told lib past).bind fun message => (parse message.body).value?.map print)
    (undefined : ∀ message, parse message = .undefined →
      request.target = "/list_participants" ∧ MissingPublisher lib message)
    (asked : ask.wp (Script lib sha host request) (Relays lib) past) :
    (answeredBy ask parse print).wp (Script lib sha host request) (Returns lib request) past := by
  unfold answeredBy
  apply Prog.wp_bind
  refine Prog.wp_mono ?_ asked
  intro past result relayed
  cases result with
  | throws e =>
    have nothing : told lib past = none := relayed
    change verdict lib request past = none
    rw [judged, nothing]
    rfl
  | undefined => exact relayed.elim
  | ok response =>
    have same : response = told lib past := relayed
    cases response with
    | none =>
      change none = verdict lib request past
      rw [judged, ← same]
      rfl
    | some response =>
      apply Prog.wp_bind
      rw [wp_lift]
      cases parsed : parse response.body with
      | ok reply =>
        change some (print reply) = verdict lib request past
        rw [judged, ← same]
        simp [parsed, Outcome.value?]
      | throws e =>
        change verdict lib request past = none
        rw [judged, ← same]
        simp [parsed, Outcome.value?]
      | undefined =>
        obtain ⟨listing, missing⟩ := undefined response.body parsed
        exact ⟨listing, response, same.symm, missing⟩

/-! ## The services -/

section

variable {token username : String} {rows : List Row} {user : User}

theorem meetingReply_script (create : request.target = "/create")
    (header : request.authorization = some token) (resolves : Resolves rows user) :
    (meetingReply lib host).wp (Script lib sha host request) (Returns lib request)
      (gateEvents token username rows) := by
  have judged : ∀ past, verdict lib request past = (told lib past).bind fun message =>
      (UserCreateVideoResponse.new lib message.body).value?.map (·.toJson lib) := by
    intro past
    simp [verdict, create]
  apply answeredBy_script judged
  · exact fun message undefined => absurd undefined (UserCreateVideoResponse.new_ne_undefined _)
  · apply sendToVideoRoom_script (Or.inl create) header resolves
    intro path
    exact ⟨_, rfl, by simp [outgoing, create]⟩

theorem listingReply_script (list : request.target = "/list_participants")
    (header : request.authorization = some token) (resolves : Resolves rows user) :
    (listingReply lib host request.body).wp (Script lib sha host request) (Returns lib request)
      (gateEvents token username rows) := by
  have judged : ∀ past, verdict lib request past = (told lib past).bind fun message =>
      (ListParticipantsResponse.new lib message.body).value?.map (·.toJson lib) := by
    intro past
    simp [verdict, list]
  apply answeredBy_script judged
  · exact fun message undefined =>
      ⟨list, (ListParticipantsResponse.new_eq_undefined message).1 undefined⟩
  · unfold listRoomParticipants
    apply Prog.wp_bind
    rw [wp_lift]
    cases built : ListParticipantsRequest.new lib request.body with
    | throws e => exact told_gateEvents token username rows
    | undefined => exact absurd built (ListParticipantsRequest.new_ne_undefined _)
    | ok message =>
      apply sendToVideoRoom_script (Or.inr list) header resolves
      intro path
      exact ⟨_, rfl, by simp [outgoing, list, built, Outcome.value?]⟩

/-- Without an answer of Janus there is no verdict on an endpoint that asks it. -/
theorem verdict_eq_none (endpoint : request.AsksJanus) (nothing : told lib past = none) :
    verdict lib request past = none := by
  rcases endpoint with create | list
  · simp [verdict, create, nothing]
  · simp [verdict, list, nothing]

theorem withSession_script {action : Handler (Option String)} (endpoint : request.AsksJanus)
    (header : request.authorization = some token)
    (behind : ∀ username rows user, Resolves rows user →
      action.wp (Script lib sha host request) (Returns lib request)
        (gateEvents token username rows)) :
    (withSession token action).wp (Script lib sha host request) (Returns lib request) [] := by
  have refused : ∀ past, told lib past = none → Returns lib request past (.ok none) :=
    fun past nothing => (verdict_eq_none endpoint nothing).symm
  unfold withSession
  apply Prog.wp_bind
  rw [wp_validateSession]
  refine ⟨.validate token endpoint header, fun valid => ?_⟩
  cases valid with
  | false => exact refused _ (by simp [told, validated])
  | true =>
    apply Prog.wp_bind
    rw [wp_getUsernameByToken]
    refine ⟨.own token endpoint header, fun owner => ?_⟩
    cases owner with
    | none => exact refused _ (by simp [told, owned])
    | some username =>
      apply Prog.wp_bind
      apply findUserByUsername_wp
      · exact .resolve token username endpoint header
      · exact fun rows user resolves => behind username rows user resolves
      · exact fun rows => refused _ (by simp [told, queried])
      · exact fun rows _ => verdict_eq_none endpoint (by simp [told, queried])

end

/-! ## The endpoints -/

theorem loginUser_script (login : request.target = "/login") :
    (Router.loginUser lib sha request).wp (Script lib sha host request)
      (Concludes lib sha request) [] := by
  have known : request.Known := Or.inl login
  have concluded : ∀ past text, (given past).map loginReply = text →
      Concludes lib sha request past (.ok (Router.reply request text)) := by
    rintro past text rfl
    exact Or.inl ⟨known, by simp [verdict, login]⟩
  unfold Router.loginUser logInUser
  apply Prog.wp_bind
  apply Prog.wp_bind
  apply findUserByUsername_wp
  · exact .lookUp login
  · intro rows user resolves
    by_cases same : (User.ofJson lib sha request.body).password = user.password
    · simp only [same, if_true]
      apply Prog.wp_bind
      rw [wp_newSession]
      refine ⟨.logIn rows user login resolves same, fun token => ?_⟩
      cases token with
      | none => exact concluded _ none (by rw [given_issued]; rfl)
      | some token => exact concluded _ (some (loginReply token)) (by rw [given_issued]; rfl)
    · simp only [same, if_false]
      exact concluded _ none (by simp [given, queried])
  · exact fun rows => concluded _ none (by simp [given, queried])
  · exact fun rows null => ⟨login, rfl, rows, rfl, null⟩

theorem withToken_script {service : String → Handler (Option String)}
    (endpoint : request.AsksJanus)
    (served : ∀ token, request.authorization = some token →
      (service token).wp (Script lib sha host request) (Returns lib request) []) :
    (Router.withToken request service).wp (Script lib sha host request)
      (Concludes lib sha request) [] := by
  have concluded : ∀ past, Concludes lib sha request past
      (.ok (Router.reply request (verdict lib request past))) :=
    fun past => Or.inl ⟨Or.inr endpoint, rfl⟩
  have refused : ∀ past, verdict lib request past = none →
      Concludes lib sha request past (.ok (Router.badRequest request)) := by
    intro past nothing
    have reply := concluded past
    rwa [nothing] at reply
  unfold Router.withToken
  apply Prog.wp_catchAll
  apply Prog.wp_bind
  rw [wp_lift]
  unfold HttpRequest.atAuthorization
  cases header : request.authorization with
  | none => exact refused [] (verdict_eq_none endpoint rfl)
  | some token =>
    apply Prog.wp_bind
    refine Prog.wp_mono ?_ (served token header)
    intro past result returned
    cases result with
    | throws e => exact refused past returned
    | undefined => exact returned
    | ok text =>
      have same : text = verdict lib request past := returned
      subst same
      exact concluded past

/-- **Every handler keeps to its script.** -/
theorem handleRequest_script (request : HttpRequest) :
    (Router.handleRequest lib sha host request).wp (Script lib sha host request)
      (Concludes lib sha request) [] := by
  unfold Router.handleRequest Router.routeRequest
  split
  · rename_i login
    exact loginUser_script login
  · rename_i login
    split
    · rename_i create
      refine withToken_script (Or.inl create) fun token header =>
        withSession_script (Or.inl create) header ?_
      exact fun username rows user resolves => meetingReply_script create header resolves
    · rename_i create
      split
      · rename_i list
        refine withToken_script (Or.inr list) fun token header =>
          withSession_script (Or.inr list) header ?_
        exact fun username rows user resolves => listingReply_script list header resolves
      · rename_i list
        have unknown : ¬ request.Known := by
          rintro (path | path | path)
          · exact login path
          · exact create path
          · exact list path
        exact Or.inr ⟨unknown, rfl, rfl⟩

end Lynks
