import Lynks.Network.Router

/-!
# What a handler asks for, and when

The order in which a handler performs its operations, for any answers. Janus is contacted only
behind `withSession`, after a valid session, its owner and the owner's row (`Cleared`); a
session is opened only by a login; and a reply is 200 only after the one or the other
(`handleRequest_wp`).
-/

namespace Lynks
set_option autoImplicit false

open Lib Janus Handler

variable {lib : Nlohmann} {sha : Sha256} {host : String} {past : List Event}

/-- The session is valid, has an owner, and the owner resolves to a valid user. -/
def gateEvents (token username : String) (rows : List Row) : List Event :=
  [validated token true, owned token (some username),
    queried selectByUsername username (some rows)]

/-- What a handler has been answered before it contacts Janus. -/
def Cleared (request : HttpRequest) (past : List Event) : Prop :=
  (request.target = "/create" ∨ request.target = "/list_participants") ∧
    ∃ token username rows user path, request.authorization = some token ∧ Resolves rows user ∧
      past = gateEvents token username rows ++ [located path]

/-- What an operation needs. -/
def Gate (request : HttpRequest) (past : List Event) : Op → Prop
  | .newSession _ => request.target = "/login"
  | .sendTemporary _ => Cleared request past
  | _ => True

/-- Janus has been contacted. -/
def Contacted (past : List Event) : Prop :=
  ∃ request body, sent request body ∈ past

/-- A reply is 200 only with a new token after a login, or after Janus has been contacted. -/
def Ends (request : HttpRequest) (past : List Event) : Outcome Exception HttpResponse → Prop
  | .ok response => response.result = .ok →
      (request.target = "/login" ∧ ∃ username token, issued username (some token) ∈ past ∧
        response.body = loginReply token) ∨
      ((request.target = "/create" ∨ request.target = "/list_participants") ∧ Contacted past)
  | _ => True

/-- The lookup of a user, for any continuation. It throws on a NULL column only. -/
theorem findUserByUsername_wp {G : List Event → Op → Prop}
    {Q : List Event → Outcome Exception (Option User) → Prop} (username : String)
    (allowed : G past (.sendQuery selectByUsername username))
    (found : ∀ rows user, Resolves rows user →
      Q (past ++ [queried selectByUsername username (some rows)]) (.ok (some user)))
    (missing : ∀ rows, Q (past ++ [queried selectByUsername username rows]) (.ok none))
    (escaped : ∀ rows, NullCredentials rows →
      Q (past ++ [queried selectByUsername username (some rows)]) (.throws .badFieldAccess)) :
    (findUserByUsername username).wp G Q past := by
  unfold findUserByUsername
  apply Prog.wp_bind
  rw [wp_sendQuery]
  refine ⟨allowed, fun rows => ?_⟩
  cases rows with
  | none => exact missing none
  | some rows =>
    show (lift (constructUserFromResult rows)).wp G Q _
    rw [wp_lift]
    rcases constructUserFromResult_cases rows with ⟨user, built, resolves⟩ | ⟨built, -⟩ |
      ⟨built, null⟩
    · rw [built]
      exact found rows user resolves
    · rw [built]
      exact missing (some rows)
    · rw [built]
      exact escaped rows null

/-- A result of the service is a text only after Janus has been contacted. -/
def Served (past : List Event) : Outcome Exception (Option String) → Prop
  | .ok (some _) => Contacted past
  | _ => True

theorem Contacted.append (contacted : Contacted past) (more : List Event) :
    Contacted (past ++ more) := by
  obtain ⟨request, body, mem⟩ := contacted
  exact ⟨request, body, List.mem_append_left more mem⟩

/-- `send_request` contacts Janus first, whatever comes of it. -/
theorem sendRequest_wp {request : HttpRequest} (cleared : Cleared request past)
    (outgoing : JanusRequest) :
    (sendRequest lib outgoing).wp (Gate request) (fun past _ => Contacted past) past := by
  have contacted : ∀ body, Contacted (past ++ [sent outgoing body]) :=
    fun body => ⟨outgoing, body, by simp⟩
  unfold sendRequest
  apply Prog.wp_bind
  rw [wp_sendTemporary]
  refine ⟨cleared, fun body => ?_⟩
  cases body with
  | none => exact contacted none
  | some body =>
    dsimp only
    cases ResponseMessage.parseJson lib body with
    | ok msg =>
      by_cases ack : msg.eventType = "ack"
      · simp only [ack, if_true]
        rw [wp_waitForTransaction]
        exact ⟨trivial, fun message => (contacted _).append _⟩
      · simp only [ack, if_false]
        exact contacted _
    | throws e => exact contacted _
    | undefined => exact contacted _

section

variable {request : HttpRequest} {token username : String} {rows : List Row} {user : User}

/-- Behind the gate a request on the video room contacts Janus. -/
theorem sendToVideoRoom_wp
    (endpoint : request.target = "/create" ∨ request.target = "/list_participants")
    (header : request.authorization = some token) (resolves : Resolves rows user)
    (type : RequestType) (json : String) :
    (sendToVideoRoom lib host type json).wp (Gate request) (fun past _ => Contacted past)
      (gateEvents token username rows) := by
  unfold sendToVideoRoom
  apply Prog.wp_bind
  rw [wp_getPath]
  refine ⟨trivial, fun path => ?_⟩
  have cleared : Cleared request (gateEvents token username rows ++ [located path]) :=
    ⟨endpoint, token, username, rows, user, path, header, resolves, rfl⟩
  obtain ⟨outgoing, built⟩ := RequestMapper.getRequest_some type json host path
  apply Prog.wp_bind
  rw [wp_lift, built]
  exact sendRequest_wp cleared outgoing

/-- A text from Janus's answer comes after Janus has been contacted. -/
theorem answeredBy_wp {α : Type} {ask : Handler (Option ResponseMessage)}
    {parse : String → Outcome Exception α} {print : α → String}
    (asked : ask.wp (Gate request) (fun past r => r.value?.isSome = true → Contacted past) past) :
    (answeredBy ask parse print).wp (Gate request) Served past := by
  unfold answeredBy
  apply Prog.wp_bind
  refine Prog.wp_mono ?_ asked
  intro past result contacted
  cases result with
  | throws e => trivial
  | undefined => trivial
  | ok response =>
    cases response with
    | none => trivial
    | some response =>
      apply Prog.wp_bind
      rw [wp_lift]
      cases parse response.body with
      | ok msgResponse => exact contacted rfl
      | throws e => trivial
      | undefined => trivial

theorem meetingReply_wp
    (endpoint : request.target = "/create" ∨ request.target = "/list_participants")
    (header : request.authorization = some token) (resolves : Resolves rows user) :
    (meetingReply lib host).wp (Gate request) Served (gateEvents token username rows) := by
  apply answeredBy_wp
  apply Prog.wp_mono _ (sendToVideoRoom_wp endpoint header resolves .createRoom _)
  exact fun past result contacted _ => contacted

theorem listingReply_wp
    (endpoint : request.target = "/create" ∨ request.target = "/list_participants")
    (header : request.authorization = some token) (resolves : Resolves rows user) (body : String) :
    (listingReply lib host body).wp (Gate request) Served (gateEvents token username rows) := by
  apply answeredBy_wp
  unfold listRoomParticipants
  apply Prog.wp_bind
  rw [wp_lift]
  cases ListParticipantsRequest.new lib body with
  | throws e => exact fun impossible => by cases impossible
  | undefined => exact fun impossible => by cases impossible
  | ok msgRequest =>
    apply Prog.wp_mono _ (sendToVideoRoom_wp endpoint header resolves .listMeetingParticipants _)
    exact fun past result contacted _ => contacted

/-- **The gate.** The action runs only after the three answers, for a valid user. -/
theorem withSession_wp {action : Handler (Option String)}
    (behind : ∀ username rows user, Resolves rows user →
      action.wp (Gate request) Served (gateEvents token username rows)) :
    (withSession token action).wp (Gate request) Served [] := by
  unfold withSession
  apply Prog.wp_bind
  rw [wp_validateSession]
  refine ⟨trivial, fun valid => ?_⟩
  cases valid with
  | false => trivial
  | true =>
    apply Prog.wp_bind
    rw [wp_getUsernameByToken]
    refine ⟨trivial, fun owner => ?_⟩
    cases owner with
    | none => trivial
    | some username =>
      apply Prog.wp_bind
      apply findUserByUsername_wp
      · trivial
      · exact fun rows user resolves => behind username rows user resolves
      · exact fun rows => trivial
      · exact fun rows null => trivial

end

/-- A login opens a session for the user it found, and replies with its token. -/
theorem loginUser_wp {request : HttpRequest} (login : request.target = "/login") :
    (Router.loginUser lib sha request).wp (Gate request) (Ends request) [] := by
  unfold Router.loginUser logInUser
  apply Prog.wp_bind
  apply Prog.wp_bind
  have refused : ∀ past, Ends request past (.ok (Router.badRequest request)) := by
    intro past accepted
    cases accepted
  apply findUserByUsername_wp
  · trivial
  · intro rows user resolves
    by_cases same : (User.ofJson lib sha request.body).password = user.password
    · simp only [same, if_true]
      apply Prog.wp_bind
      rw [wp_newSession]
      refine ⟨login, fun token => ?_⟩
      cases token with
      | none => exact refused _
      | some token =>
        intro _
        exact Or.inl ⟨login, user.username, token, by simp, rfl⟩
    · simp only [same, if_false]
      exact refused _
  · exact fun rows => refused _
  · exact fun rows null => trivial

/-- An endpoint behind the gate replies 400 to whatever goes wrong. -/
theorem withToken_wp {request : HttpRequest} {service : String → Handler (Option String)}
    (endpoint : request.target = "/create" ∨ request.target = "/list_participants")
    (served : ∀ token, request.authorization = some token →
      (service token).wp (Gate request) Served []) :
    (Router.withToken request service).wp (Gate request) (Ends request) [] := by
  have refused : ∀ past, Ends request past (.ok (Router.badRequest request)) := by
    intro past accepted
    cases accepted
  unfold Router.withToken
  apply Prog.wp_catchAll
  apply Prog.wp_bind
  rw [wp_lift]
  unfold HttpRequest.atAuthorization
  cases header : request.authorization with
  | none => exact refused []
  | some token =>
    apply Prog.wp_bind
    refine Prog.wp_mono ?_ (served token header)
    intro past result contacted
    cases result with
    | throws e => exact refused past
    | undefined => trivial
    | ok text =>
      cases text with
      | none => exact refused past
      | some text => exact fun _ => Or.inr ⟨endpoint, contacted⟩

/-- **What any handler may ask for, and how it may end.** -/
theorem handleRequest_wp (request : HttpRequest) :
    (Router.handleRequest lib sha host request).wp (Gate request) (Ends request) [] := by
  unfold Router.handleRequest Router.routeRequest
  split
  · rename_i login
    exact loginUser_wp login
  · split
    · rename_i create
      refine withToken_wp (Or.inl create) fun token header => withSession_wp ?_
      intro username rows user resolves
      exact meetingReply_wp (Or.inl create) header resolves
    · split
      · rename_i list
        refine withToken_wp (Or.inr list) fun token header => withSession_wp ?_
        intro username rows user resolves
        exact listingReply_wp (Or.inr list) header resolves request.body
      · intro accepted
        cases accepted

end Lynks
