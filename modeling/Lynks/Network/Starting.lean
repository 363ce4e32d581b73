import Lynks.Janus.Start
import Lynks.Network.Conversation

/-!
# Requests while the Janus client starts

`start` runs on a thread of its own from the moment the server is built, and clients may come at
once. A handler reads the path of the video room from the context `start` is filling in, so a
message goes to as much of the path as Janus has given so far (`messages_addressed`). Its sockets
and its waits are on that context too: when `start` has failed and stopped it, no handler that
has got as far as Janus is ever answered (`unanswered_after_stop`).
-/

namespace Lynks
set_option autoImplicit false

open Lib Stateful Janus Handler

/-! ## `start`, one wait at a time -/

namespace Janus

/-- What `start` is waiting for. -/
inductive StartStage where
  | connecting
  /-- the answer to `create_session_request` -/
  | creating
  /-- the answer to `attach_plugin_request` -/
  | attaching
  | ended (r : Outcome Exception Unit)
  deriving DecidableEq

inductive StartEvent where
  | connected (result : ConnectResult)
  | created (reply : Reply)
  | attached (reply : Reply)

section

variable (lib : Nlohmann)

/-- `start` once `connect` has ended. -/
def afterConnect (result : ConnectResult) : Stateful Context Exception StartStage := do
  let connected ← connect result
  if !connected then do
    stop
    pure (.ended (.ok ()))
  else pure .creating

/-- `init_session` once its request is answered, up to the next request. -/
def afterCreate (reply : Reply) : Stateful Context Exception StartStage :=
  match reply.answer lib with
  | none => do
    stop
    pure (.ended (.ok ()))
  | some response => do
    let msgResponse ← lift (CreateSessionResponse.new lib response.body)
    modify fun c => { c with sessionPath := msgResponse.sessionId }
    pure .attaching

/-- `init_videoroom` once its request is answered, and the end of `start`. -/
def afterAttach (reply : Reply) : Stateful Context Exception StartStage :=
  match reply.answer lib with
  | none => do
    stop
    pure (.ended (.ok ()))
  | some response => do
    let msgResponse ← lift (AttachPluginResponse.new lib response.body)
    modify fun c => { c with videoroomPath := msgResponse.pluginHandle }
    modify fun c => { c with polling := true }
    pure (.ended (.ok ()))

/-- The stretch of `start` from an event to its next wait. -/
def resumeStart : StartStage → StartEvent → Option (Stateful Context Exception StartStage)
  | .connecting, .connected result => some (afterConnect result)
  | .creating, .created reply => some (afterCreate lib reply)
  | .attaching, .attached reply => some (afterAttach lib reply)
  | _, _ => none

/-- An exception ends `start`, and the context stays as it is. -/
def settle (stretch : Stateful Context Exception StartStage) (c : Context) :
    Context × StartStage :=
  match stretch c with
  | (.ok stage, c) => (c, stage)
  | (.throws e, c) => (c, .ended (.throws e))
  | (.undefined, c) => (c, .ended .undefined)

def stepStart (c : Context) (stage : StartStage) (e : StartEvent) : Option (Context × StartStage) :=
  (resumeStart lib stage e).map fun stretch => settle stretch c

end

variable {lib : Nlohmann} {sha : Sha256} {host : String} {c c' : Context}
  {stage stage' : StartStage}

theorem settle_stop (c : Context) : ∃ r, stop c = (r, c.afterStop) ∧ settle (do
    stop
    pure (.ended (.ok ()))) c = (c.afterStop, .ended r) := by
  obtain ⟨r, stops⟩ := stop_run c
  refine ⟨r, stops, ?_⟩
  cases r with
  | ok a => rw [settle, bind_of_ok stops]; rfl
  | throws e => rw [settle, bind_of_throws stops]
  | undefined =>
    unfold stop at stops
    cases joins : c.joinable <;> simp [joins] at stops

/-- The end of `start`, from what `init` has returned. -/
def finishStart (inited : Bool) : Stateful Context Exception Unit :=
  if !inited then stop else modify fun c => { c with polling := true }

theorem afterConnect_cases (result : ConnectResult) (c : Context) :
    (result = .connected ∧
      settle (afterConnect result) c = ({ c with socketOpen := true }, .creating) ∧
      ∀ env : Startup, env.connect = result → start lib sha host env c =
        (initSession lib sha host env >>= finishStart) { c with socketOpen := true }) ∨
    ∃ r socketOpen,
      settle (afterConnect result) c = ({ c with socketOpen }.afterStop, .ended r) ∧
      ∀ env : Startup, env.connect = result →
        start lib sha host env c = (r, { c with socketOpen }.afterStop) := by
  obtain ⟨socketOpen, ended⟩ := connect_run result c
  by_cases connected : result = .connected
  · refine Or.inl ⟨connected, ?_, fun env same => start_connected (same.trans connected) c⟩
    subst connected
    rfl
  · obtain ⟨r, stops, settled⟩ := settle_stop { c with socketOpen }
    refine Or.inr ⟨r, socketOpen, ?_, fun env same => ?_⟩
    · rw [← settled, settle, settle, afterConnect, bind_of_ok ended]
      simp [connected]
    · rw [start, same, bind_of_ok ended]
      simpa [connected] using stops

/-- `init_session` from the answer to its request on. -/
theorem initSession_eq (env : Startup) (c : Context) : initSession lib sha host env c =
    (match env.session.answer lib with
      | none => pure false
      | some response => do
        let msgResponse ← lift (CreateSessionResponse.new lib response.body)
        modify fun c => { c with sessionPath := msgResponse.sessionId }
        initVideoroom lib sha host env : Stateful Context Exception Bool) c := by
  have asked : ∀ request, (sendRequest lib request).run env.session.world.answer =
      .ok (env.session.answer lib) := fun request => sendRequest_run request
  obtain ⟨request, built⟩ := RequestMapper.getRequest_some .createSession
    ((CreateSessionRequest.new (generateStringId sha env.sessionDraws)).toJson lib) host "/janus"
  cases answered : env.session.answer lib <;>
    simp only [initSession, built, lift_ok_bind, asked, answered]

/-- `init_videoroom` from the answer to its request on. -/
theorem initVideoroom_eq (env : Startup) (c : Context) : initVideoroom lib sha host env c =
    (match env.videoroom.answer lib with
      | none => pure false
      | some response => do
        let msgResponse ← lift (AttachPluginResponse.new lib response.body)
        modify fun c => { c with videoroomPath := msgResponse.pluginHandle }
        pure true : Stateful Context Exception Bool) c := by
  have asked : ∀ request, (sendRequest lib request).run env.videoroom.world.answer =
      .ok (env.videoroom.answer lib) := fun request => sendRequest_run request
  obtain ⟨request, built⟩ := RequestMapper.getRequest_some .activateVidroomPlugin
    ((AttachPluginRequest.new (generateStringId sha env.videoroomDraws)
      "janus.plugin.videoroom").toJson lib) host ("/janus/" ++ c.sessionPath)
  cases answered : env.videoroom.answer lib <;>
    simp only [initVideoroom, get_bind, built, lift_ok_bind, asked, answered]

/-- What both requests do with their answer, for `start` whole and for `start` in stretches: it
goes on with what was read, or it ends, the same way, in a context that is stopped or left alone. -/
theorem settle_answer {α : Type} (answer : Option ResponseMessage)
    (make : String → Outcome Exception α) (k : α → Stateful Context Exception StartStage)
    (c : Context) :
    (∃ a, settle (match answer with
        | none => do
          stop
          pure (.ended (.ok ()))
        | some response => lift (make response.body) >>= k) c = settle (k a) c ∧
      ∀ k' : α → Stateful Context Exception Bool, Stateful.bind (match answer with
        | none => pure false
        | some response => lift (make response.body) >>= k') finishStart c =
          Stateful.bind (k' a) finishStart c) ∨
    ∃ r c', (c' = c.afterStop ∨ c' = c) ∧ settle (match answer with
        | none => do
          stop
          pure (.ended (.ok ()))
        | some response => lift (make response.body) >>= k) c = (c', .ended r) ∧
      ∀ k' : α → Stateful Context Exception Bool, Stateful.bind (match answer with
        | none => pure false
        | some response => lift (make response.body) >>= k') finishStart c = (r, c') := by
  cases answer with
  | none =>
    obtain ⟨r, stops, settled⟩ := settle_stop c
    exact Or.inr ⟨r, c.afterStop, Or.inl rfl, settled, fun _ => stops⟩
  | some response =>
    cases made : make response.body with
    | ok a => exact Or.inl ⟨a, by simp only [made]; rfl, fun _ => by simp only [made]; rfl⟩
    | throws e =>
      exact Or.inr ⟨.throws e, c, Or.inr rfl, by simp only [made]; rfl,
        fun _ => by simp only [made]; rfl⟩
    | undefined =>
      exact Or.inr ⟨.undefined, c, Or.inr rfl, by simp only [made]; rfl,
        fun _ => by simp only [made]; rfl⟩

theorem afterCreate_cases (reply : Reply) (c : Context) :
    (∃ n, settle (afterCreate lib reply) c = ({ c with sessionPath := n }, .attaching) ∧
      ∀ env : Startup, env.session = reply → (initSession lib sha host env >>= finishStart) c =
        (initVideoroom lib sha host env >>= finishStart) { c with sessionPath := n }) ∨
    ∃ r c', (c' = c.afterStop ∨ c' = c) ∧ settle (afterCreate lib reply) c = (c', .ended r) ∧
      ∀ env : Startup, env.session = reply →
        (initSession lib sha host env >>= finishStart) c = (r, c') := by
  have whole (env : Startup) : (initSession lib sha host env >>= finishStart) c =
      Stateful.bind (match env.session.answer lib with
        | none => pure false
        | some response => lift (CreateSessionResponse.new lib response.body) >>= fun r => do
          modify fun c => { c with sessionPath := r.sessionId }
          initVideoroom lib sha host env) finishStart c := by
    change Stateful.bind _ _ c = _
    rw [Stateful.bind, initSession_eq]
    rfl
  rcases settle_answer (reply.answer lib) (CreateSessionResponse.new lib) (fun r => do
      modify fun c => { c with sessionPath := r.sessionId }
      pure .attaching) c with ⟨a, settled, rest⟩ | ⟨r, c', left, settled, rest⟩
  · refine Or.inl ⟨a.sessionId, settled, ?_⟩
    rintro env rfl
    exact (whole env).trans (rest _)
  · refine Or.inr ⟨r, c', left, settled, ?_⟩
    rintro env rfl
    exact (whole env).trans (rest _)

theorem afterAttach_cases (reply : Reply) (c : Context) :
    (∃ n, settle (afterAttach lib reply) c =
        ({ c with videoroomPath := n, polling := true }, .ended (.ok ())) ∧
      ∀ env : Startup, env.videoroom = reply →
        (initVideoroom lib sha host env >>= finishStart) c =
          (.ok (), { c with videoroomPath := n, polling := true })) ∨
    ∃ r c', (c' = c.afterStop ∨ c' = c) ∧ settle (afterAttach lib reply) c = (c', .ended r) ∧
      ∀ env : Startup, env.videoroom = reply →
        (initVideoroom lib sha host env >>= finishStart) c = (r, c') := by
  have whole (env : Startup) : (initVideoroom lib sha host env >>= finishStart) c =
      Stateful.bind (match env.videoroom.answer lib with
        | none => pure false
        | some response => lift (AttachPluginResponse.new lib response.body) >>= fun r => do
          modify fun c => { c with videoroomPath := r.pluginHandle }
          pure true) finishStart c := by
    change Stateful.bind _ _ c = _
    rw [Stateful.bind, initVideoroom_eq]
    rfl
  rcases settle_answer (reply.answer lib) (AttachPluginResponse.new lib) (fun r => do
      modify fun c => { c with videoroomPath := r.pluginHandle }
      modify fun c => { c with polling := true }
      pure (.ended (.ok ()))) c with ⟨a, settled, rest⟩ | ⟨r, c', left, settled, rest⟩
  · refine Or.inl ⟨a.pluginHandle, settled, ?_⟩
    rintro env rfl
    exact (whole env).trans (rest _)
  · refine Or.inr ⟨r, c', left, settled, ?_⟩
    rintro env rfl
    exact (whole env).trans (rest _)

/-- `start` meets this, in its place. -/
def Startup.Gives (env : Startup) : StartEvent → Prop
  | .connected result => env.connect = result
  | .created reply => env.session = reply
  | .attached reply => env.videoroom = reply

def Startup.Meets (env : Startup) (events : List StartEvent) : Prop := ∀ e ∈ events, env.Gives e

/-- What has been done of `start`: with anything that begins with these events it comes to the
same, and the part of the path that it is waiting for is empty. -/
def Accounts (lib : Nlohmann) (sha : Sha256) (host : String) (joinable : Bool)
    (events : List StartEvent) (c : Context) : StartStage → Prop
  | .connecting => c = .fresh joinable
  | .creating => (c.sessionPath = "" ∧ c.videoroomPath = "" ∧ c.stopped = false) ∧
      ∀ env : Startup, env.Meets events →
        start lib sha host env (.fresh joinable) = (initSession lib sha host env >>= finishStart) c
  | .attaching => (c.videoroomPath = "" ∧ c.stopped = false) ∧
      ∀ env : Startup, env.Meets events → start lib sha host env (.fresh joinable) =
        (initVideoroom lib sha host env >>= finishStart) c
  | .ended r => ∀ env : Startup, env.Meets events →
      start lib sha host env (.fresh joinable) = (r, c)

/-- The path of `c` is a part of that of `c'`. -/
def Context.Precedes (c c' : Context) : Prop :=
  (c.sessionPath = "" ∧ c.videoroomPath = "") ∨
    c.sessionPath = c'.sessionPath ∧
      (c.videoroomPath = "" ∨ c.videoroomPath = c'.videoroomPath)

theorem Context.Precedes.refl (c : Context) : c.Precedes c := Or.inr ⟨rfl, Or.inr rfl⟩

theorem Startup.Meets.append {env : Startup} {events more : List StartEvent}
    (meets : env.Meets (events ++ more)) : env.Meets events ∧ env.Meets more :=
  ⟨fun e mem => meets e (List.mem_append_left _ mem),
    fun e mem => meets e (List.mem_append_right _ mem)⟩

/-- **A stretch of `start`** does its part, and adds to the path. -/
theorem Accounts.step {joinable : Bool} {events : List StartEvent} {e : StartEvent}
    (accounts : Accounts lib sha host joinable events c stage)
    (taken : stepStart lib c stage e = some (c', stage')) :
    Accounts lib sha host joinable (events ++ [e]) c' stage' ∧
      ∀ d : Context, d.Precedes c → d.Precedes c' := by
  obtain ⟨stretch, resumed, settled⟩ := Option.map_eq_some_iff.1 taken
  have last {env : Startup} (meets : env.Meets (events ++ [e])) :
      env.Meets events ∧ env.Gives e := ⟨meets.append.1, meets.append.2 e (by simp)⟩
  cases stage with
  | connecting =>
    obtain rfl : c = .fresh joinable := accounts
    cases e with
    | connected result =>
      obtain rfl := Option.some.inj resumed
      rcases afterConnect_cases result (.fresh joinable) with
        ⟨-, goes, whole⟩ | ⟨r, socketOpen, goes, whole⟩
      · obtain ⟨rfl, rfl⟩ := Prod.mk.inj (goes.symm.trans settled)
        exact ⟨⟨⟨rfl, rfl, rfl⟩, fun env meets => whole env (last meets).2⟩, fun d before => before⟩
      · obtain ⟨rfl, rfl⟩ := Prod.mk.inj (goes.symm.trans settled)
        exact ⟨fun env meets => whole env (last meets).2, fun d before => before⟩
    | _ => cases resumed
  | creating =>
    obtain ⟨⟨noSession, noRoom, running⟩, sofar⟩ := accounts
    cases e with
    | created reply =>
      obtain rfl := Option.some.inj resumed
      rcases afterCreate_cases reply c with
        ⟨n, goes, whole⟩ | ⟨r, d, left, goes, whole⟩
      · obtain ⟨rfl, rfl⟩ := Prod.mk.inj (goes.symm.trans settled)
        refine ⟨⟨⟨noRoom, running⟩, fun env meets => ?_⟩, ?_⟩
        · exact (sofar env (last meets).1).trans (whole env (last meets).2)
        · rintro d (empty | ⟨session, room⟩)
          · exact Or.inl empty
          · exact Or.inl ⟨session.trans noSession, room.elim id fun same => same.trans noRoom⟩
      · obtain ⟨rfl, rfl⟩ := Prod.mk.inj (goes.symm.trans settled)
        refine ⟨fun env meets => (sofar env (last meets).1).trans (whole env (last meets).2), ?_⟩
        rcases left with rfl | rfl <;> exact fun d before => before
    | _ => cases resumed
  | attaching =>
    obtain ⟨⟨noRoom, running⟩, sofar⟩ := accounts
    cases e with
    | attached reply =>
      obtain rfl := Option.some.inj resumed
      rcases afterAttach_cases reply c with
        ⟨n, goes, whole⟩ | ⟨r, d, left, goes, whole⟩
      · obtain ⟨rfl, rfl⟩ := Prod.mk.inj (goes.symm.trans settled)
        refine ⟨fun env meets => (sofar env (last meets).1).trans (whole env (last meets).2), ?_⟩
        rintro d (empty | ⟨session, room⟩)
        · exact Or.inl empty
        · exact Or.inr ⟨session, Or.inl (room.elim id fun same => same.trans noRoom)⟩
      · obtain ⟨rfl, rfl⟩ := Prod.mk.inj (goes.symm.trans settled)
        refine ⟨fun env meets => (sofar env (last meets).1).trans (whole env (last meets).2), ?_⟩
        rcases left with rfl | rfl <;> exact fun d before => before
    | _ => cases resumed
  | ended r => cases resumed

/-- When `start` waits for something the context runs. -/
theorem Accounts.ended {joinable : Bool} {events : List StartEvent}
    (accounts : Accounts lib sha host joinable events c stage) (stopped : c.stopped = true) :
    ∃ r, stage = .ended r := by
  cases stage with
  | connecting =>
    obtain rfl : c = .fresh joinable := accounts
    cases stopped
  | creating => exact absurd (accounts.1.2.2.symm.trans stopped) (by decide)
  | attaching => exact absurd (accounts.1.2.symm.trans stopped) (by decide)
  | ended r => exact ⟨r, rfl⟩

end Janus

/-! ## What a handler needs the context for -/

/-- The operations on the context: to read its path, and to wait for something on it. -/
def Op.onContext : Op → Bool
  | .getPath => true
  | .sendTemporary _ => true
  | .waitForTransaction _ => true
  | _ => false

/-- Nothing has been asked of the context. -/
def Quiet (past : List Event) : Prop := ∀ e ∈ past, e.1.onContext = false

/-- The last thing that happened was an answer from the context's thread. -/
def Heard (past : List Event) : Prop := ∃ before e, past = before ++ [e] ∧ e.1.awaitsContext = true

def Settled (past : List Event) : Prop := Quiet past ∨ Heard past

section

variable {lib : Nlohmann} {sha : Sha256} {host : String} {past : List Event}

theorem Quiet.snoc (quiet : Quiet past) {e : Event} (other : e.1.onContext = false) :
    Quiet (past ++ [e]) := forall_append quiet other

theorem sendRequest_heard (message : JanusRequest) :
    (sendRequest lib message).wp (fun _ _ => True) (fun past _ => Heard past) past := by
  have heard : ∀ body, Heard (past ++ [sent message body]) := fun body => ⟨past, _, rfl, rfl⟩
  unfold sendRequest
  apply Prog.wp_bind
  rw [wp_sendTemporary]
  refine ⟨trivial, fun body => ?_⟩
  cases body with
  | none => exact heard none
  | some body =>
    dsimp only
    cases ResponseMessage.parseJson lib body with
    | ok msg =>
      by_cases ack : msg.eventType = "ack"
      · simp only [ack, if_true]
        rw [wp_waitForTransaction]
        exact ⟨trivial, fun message => ⟨_, _, rfl, rfl⟩⟩
      · simp only [ack, if_false]
        exact heard _
    | throws e => exact heard _
    | undefined => exact heard _

theorem sendToVideoRoom_heard (type : RequestType) (json : String) :
    (sendToVideoRoom lib host type json).wp (fun _ _ => True) (fun past _ => Heard past) past := by
  unfold sendToVideoRoom
  apply Prog.wp_bind
  rw [wp_getPath]
  refine ⟨trivial, fun path => ?_⟩
  obtain ⟨message, built⟩ := RequestMapper.getRequest_some type json host path
  apply Prog.wp_bind
  rw [wp_lift, built]
  exact sendRequest_heard message

theorem answeredBy_settled {α : Type} {ask : Handler (Option ResponseMessage)}
    {parse : String → Outcome Exception α} {print : α → String}
    (asked : ask.wp (fun _ _ => True) (fun past _ => Settled past) past) :
    (answeredBy ask parse print).wp (fun _ _ => True) (fun past _ => Settled past) past := by
  unfold answeredBy
  apply Prog.wp_bind
  refine Prog.wp_mono ?_ asked
  intro past result settled
  cases result with
  | throws e => exact settled
  | undefined => exact settled
  | ok response =>
    cases response with
    | none => exact settled
    | some response =>
      apply Prog.wp_bind
      rw [wp_lift]
      cases parse response.body <;> exact settled

theorem meetingReply_settled :
    (meetingReply lib host).wp (fun _ _ => True) (fun past _ => Settled past) past :=
  answeredBy_settled (Prog.wp_mono (fun _ _ => Or.inr) (sendToVideoRoom_heard _ _))

theorem listingReply_settled (quiet : Quiet past) (body : String) :
    (listingReply lib host body).wp (fun _ _ => True) (fun past _ => Settled past) past := by
  apply answeredBy_settled
  unfold listRoomParticipants
  apply Prog.wp_bind
  rw [wp_lift]
  cases ListParticipantsRequest.new lib body with
  | ok msgRequest => exact Prog.wp_mono (fun _ _ => Or.inr) (sendToVideoRoom_heard _ _)
  | throws e => exact Or.inl quiet
  | undefined => exact Or.inl quiet

/-- The gate asks nothing of the context. -/
theorem withSession_settled {token : String} {action : Handler (Option String)}
    (behind : ∀ past, Quiet past →
      action.wp (fun _ _ => True) (fun past _ => Settled past) past) :
    (withSession token action).wp (fun _ _ => True) (fun past _ => Settled past) [] := by
  have start : Quiet [] := fun e mem => by cases mem
  unfold withSession
  apply Prog.wp_bind
  rw [wp_validateSession]
  refine ⟨trivial, fun valid => ?_⟩
  have checked : Quiet ([] ++ [validated token valid]) := start.snoc rfl
  cases valid with
  | false => exact Or.inl checked
  | true =>
    apply Prog.wp_bind
    rw [wp_getUsernameByToken]
    refine ⟨trivial, fun owner => ?_⟩
    have known : Quiet ([] ++ [validated token true] ++ [owned token owner]) := checked.snoc rfl
    cases owner with
    | none => exact Or.inl known
    | some username =>
      apply Prog.wp_bind
      apply findUserByUsername_wp
      · trivial
      · exact fun rows user resolves => behind _ (known.snoc rfl)
      · exact fun rows => Or.inl (known.snoc rfl)
      · exact fun rows null => Or.inl (known.snoc rfl)

theorem loginUser_settled (request : HttpRequest) :
    (Router.loginUser lib sha request).wp (fun _ _ => True) (fun past _ => Settled past) [] := by
  have start : Quiet [] := fun e mem => by cases mem
  unfold Router.loginUser logInUser
  apply Prog.wp_bind
  apply Prog.wp_bind
  apply findUserByUsername_wp
  · trivial
  · intro rows user resolves
    by_cases same : (User.ofJson lib sha request.body).password = user.password
    · simp only [same, if_true]
      apply Prog.wp_bind
      rw [wp_newSession]
      refine ⟨trivial, fun token => ?_⟩
      cases token <;> exact Or.inl ((start.snoc rfl).snoc rfl)
    · simp only [same, if_false]
      exact Or.inl (start.snoc rfl)
  · exact fun rows => Or.inl (start.snoc rfl)
  · exact fun rows null => Or.inl (start.snoc rfl)

theorem withToken_settled {request : HttpRequest} {service : String → Handler (Option String)}
    (served : ∀ token, (service token).wp (fun _ _ => True) (fun past _ => Settled past) []) :
    (Router.withToken request service).wp (fun _ _ => True) (fun past _ => Settled past) [] := by
  unfold Router.withToken
  apply Prog.wp_catchAll
  apply Prog.wp_bind
  rw [wp_lift]
  cases request.atAuthorization with
  | throws e => exact Or.inl fun e mem => by cases mem
  | undefined => exact Or.inl fun e mem => by cases mem
  | ok token =>
    apply Prog.wp_bind
    refine Prog.wp_mono ?_ (served token)
    intro past result settled
    cases result <;> exact settled

/-- **A handler that has ended** has asked nothing of the context, or has heard from its thread
last. -/
theorem handleRequest_settled (request : HttpRequest) :
    (Router.handleRequest lib sha host request).wp (fun _ _ => True) (fun past _ => Settled past)
      [] := by
  unfold Router.handleRequest Router.routeRequest
  split
  · exact loginUser_settled request
  · split
    · exact withToken_settled fun token => withSession_settled fun _ _ => meetingReply_settled
    · split
      · exact withToken_settled fun token =>
          withSession_settled fun _ quiet => listingReply_settled quiet request.body
      · exact Or.inl fun e mem => by cases mem

end

/-! ## Handlers beside `start` -/

/-- The handlers, and the context that `start` is setting up. -/
structure Starting where
  service : Service
  context : Context
  stage : StartStage

inductive StartingEvent where
  | start (e : StartEvent)
  | service (e : ServiceEvent)

/-- A handler reads the path the context has, and what it waits for on the context comes only
while its thread runs. A completion there and the resumption of the handler that waited for it are
one step here: in between, the handler's next stretch is only posted to the server's context. -/
def Janus.Context.admits (c : Context) : ServiceEvent → Bool
  | .perform _ ⟨.getPath, (path : String)⟩ _ _ => path = c.getPath
  | .perform _ ⟨.sendTemporary _, _⟩ _ _ => !c.stopped
  | .perform _ ⟨.waitForTransaction _, _⟩ _ _ => !c.stopped
  | _ => true

/-- An operation, the context it met, and what `start` was waiting for. -/
structure Sighting where
  record : Record
  context : Context
  stage : StartStage

namespace Starting

section

variable (lib : Nlohmann) (sha : Sha256) (host : String) (maxSessions : UInt16) (joinable : Bool)

def step (s : Starting) : StartingEvent → Option Starting
  | .start e => (stepStart lib s.context s.stage e).map fun next =>
      { s with context := next.1, stage := next.2 }
  | .service e =>
    if s.context.admits e then
      (s.service.step lib sha host e).map fun service => { s with service }
    else none

/-- The server from its construction on. -/
def machine : Machine Starting StartingEvent where
  init :=
    { service := (Lynks.service lib sha host maxSessions).init
      context := .fresh joinable
      stage := .connecting }
  step := step lib sha host

def sighting (s : Starting) : StartingEvent → Option Sighting
  | .service e => (s.service.record e).map fun r => ⟨r, s.context, s.stage⟩
  | .start _ => none

/-- The operations of the handlers in a run, in order. -/
def sightings (es : List StartingEvent) : List Sighting :=
  (machine lib sha host maxSessions joinable).log (fun s e => (s.sighting e).toList) es

end

/-- What `start` has met in a run. -/
def startEvents (es : List StartingEvent) : List StartEvent :=
  es.filterMap fun
    | .start e => some e
    | .service _ => none

def serviceEvents (_ : Starting) : StartingEvent → List ServiceEvent
  | .service e => [e]
  | .start _ => []

variable {lib : Nlohmann} {sha : Sha256} {host : String} {maxSessions : UInt16} {joinable : Bool}
  {s t : Starting} {es fs : List StartingEvent}

theorem service_cases {e : ServiceEvent} (taken : s.step lib sha host (.service e) = some t) :
    s.context.admits e = true ∧ ∃ service, s.service.step lib sha host e = some service ∧
      t = { s with service } := by
  obtain ⟨admitted, moved⟩ := Option.ite_none_right_eq_some.1 taken
  obtain ⟨service, next, rfl⟩ := Option.map_eq_some_iff.1 moved
  exact ⟨admitted, service, next, rfl⟩

theorem start_cases {e : StartEvent} (taken : s.step lib sha host (.start e) = some t) :
    stepStart lib s.context s.stage e = some (t.context, t.stage) ∧ t.service = s.service := by
  obtain ⟨next, moved, rfl⟩ := Option.map_eq_some_iff.1 taken
  exact ⟨moved, rfl⟩

theorem step_service {e : StartingEvent} (taken : s.step lib sha host e = some t) :
    (Lynks.service lib sha host maxSessions).exec s.service (serviceEvents s e) =
      some t.service := by
  cases e with
  | start e =>
    rw [(start_cases taken).2]
    rfl
  | service e =>
    obtain ⟨-, service, moved, rfl⟩ := service_cases taken
    change (s.service.step lib sha host e).bind _ = _
    rw [moved]
    rfl

theorem record_service (s : Starting) (e : StartingEvent) :
    ((s.sighting e).toList.map (·.record)) = (Lynks.service lib sha host maxSessions).observe
      (fun s e => (s.record e).toList) s.service (serviceEvents s e) := by
  cases e with
  | start e => rfl
  | service e =>
    rw [serviceEvents, Machine.observe_singleton, sighting]
    cases s.service.record e <;> rfl

/-- The handlers' own run, with the same operations. -/
theorem service_history (run : (machine lib sha host maxSessions joinable).Run es s) :
    ∃ gs, (Lynks.service lib sha host maxSessions).Run gs s.service ∧
      (sightings lib sha host maxSessions joinable es).map (·.record) =
        Service.history lib sha host maxSessions gs := by
  obtain ⟨matched, same⟩ := run.project_log (N := Lynks.service lib sha host maxSessions)
    (π := Starting.service) (k := serviceEvents)
    (f := fun s e => (s.sighting e).toList.map (·.record)) (g := fun s e => (s.record e).toList) rfl
    (fun _ _ _ taken => step_service taken) record_service
  refine ⟨_, matched, Eq.trans ?_ same⟩
  have filtered := (machine lib sha host maxSessions joinable).log_filterMap
    (fun s e => (s.sighting e).toList) (fun x => some x.record) es
  simp only [List.filterMap_eq_map'] at filtered
  exact filtered

/-! ## Where messages go -/

/-- `start` has done its part, and every operation so far met a part of the path there is now. -/
structure Tracked (lib : Nlohmann) (sha : Sha256) (host : String) (joinable : Bool)
    (events : List StartEvent) (h : List Sighting) (s : Starting) : Prop where
  accounts : Accounts lib sha host joinable events s.context s.stage
  precedes : ∀ x ∈ h, x.context.Precedes s.context
  ended : ∀ x ∈ h, ∀ r, x.stage = .ended r → s.stage = .ended r ∧ x.context = s.context

theorem startEvents_snoc (es : List StartingEvent) (e : StartingEvent) :
    startEvents (es ++ [e]) = startEvents es ++ startEvents [e] := List.filterMap_append

theorem tracked_of_run (run : (machine lib sha host maxSessions joinable).Run es s) :
    Tracked lib sha host joinable (startEvents es)
      (sightings lib sha host maxSessions joinable es) s := by
  refine Machine.Run.induct (M := machine lib sha host maxSessions joinable)
    (I := fun es s => Tracked lib sha host joinable (startEvents es)
      (sightings lib sha host maxSessions joinable es) s)
    ⟨rfl, fun x mem => (by cases mem), fun x mem => (by cases mem)⟩ ?_ run
  intro es s e t run tracked (taken : s.step lib sha host e = some t)
  obtain ⟨accounts, precedes, ended⟩ := tracked
  have logged : sightings lib sha host maxSessions joinable (es ++ [e]) =
      sightings lib sha host maxSessions joinable es ++ (s.sighting e).toList :=
    Machine.log_snoc run
  rw [startEvents_snoc, logged]
  cases e with
  | start e =>
    obtain ⟨moved, -⟩ := start_cases taken
    obtain ⟨accounts', adds⟩ := accounts.step moved
    change Tracked lib sha host joinable (startEvents es ++ [e]) (_ ++ []) t
    rw [List.append_nil]
    refine ⟨accounts', fun x mem => adds _ (precedes x mem), fun x mem r was => ?_⟩
    -- once `start` has ended nothing more happens to it
    rw [(ended x mem r was).1] at moved
    cases moved
  | service e =>
    obtain ⟨-, service, -, rfl⟩ := service_cases taken
    change Tracked lib sha host joinable (startEvents es ++ []) _ _
    rw [List.append_nil]
    refine ⟨accounts, fun x mem => ?_, fun x mem r was => ?_⟩
    · rcases List.mem_append.1 mem with old | new
      · exact precedes x old
      · obtain ⟨record, -, rfl⟩ := Option.map_eq_some_iff.1 (Option.mem_toList.1 new)
        exact .refl _
    · rcases List.mem_append.1 mem with old | new
      · exact ended x old r was
      · obtain ⟨record, -, rfl⟩ := Option.map_eq_some_iff.1 (Option.mem_toList.1 new)
        exact ⟨was, rfl⟩

/-- What an operation on the context met. -/
theorem sighting_cases (run : (machine lib sha host maxSessions joinable).Run es s)
    {x : Sighting} (mem : x ∈ sightings lib sha host maxSessions joinable es) :
    (∀ path, x.record.event = located path → path = x.context.getPath) ∧
      (x.record.event.1.awaitsContext = true → x.context.stopped = false) := by
  obtain ⟨u, e, v, -, (taken : u.step lib sha host e = some v), seen⟩ := run.mem_log mem
  have seen := Option.mem_toList.1 seen
  cases e with
  | start e => cases seen
  | service e =>
    obtain ⟨record, recorded, rfl⟩ := Option.map_eq_some_iff.1 seen
    obtain ⟨admitted, service, moved, -⟩ := service_cases taken
    obtain ⟨refreshed, -, -, -, rfl, -⟩ := Service.record_cases moved recorded
    constructor
    · intro path event
      dsimp only at event
      rw [event] at admitted
      exact of_decide_eq_true admitted
    · intro awaits
      obtain ⟨handler, request, ⟨o, answer⟩, store, now⟩ := record
      cases o with
      | sendTemporary message => simpa [Context.admits] using admitted
      | waitForTransaction tx => simpa [Context.admits] using admitted
      | _ => cases awaits

/-- How Janus gives an id. -/
def idReply (id : String) : Reply :=
  ⟨some ("\x7b\"data\":\x7b\"id\":" ++ id ++ "\x7d,\"janus\":\"success\",\"transaction\":\"\"\x7d"),
    fun _ => none⟩

/-- Alice creates a room when there is a session with Janus, and no handle yet. -/
def earlyRun : List StartingEvent :=
  [.start (.connected .connected), .start (.created (idReply "7"))] ++
  ([.arrive ⟨"/login", 11, none, "\x7b\"password\":\"secret\",\"username\":\"alice\"\x7d"⟩,
    .perform 0 (queried selectByUsername "alice" (some [Service.aliceRow])) 0 0,
    .perform 0 (issued "alice" (some "a1")) 1000 0,
    .arrive ⟨"/create", 11, some "a1", ""⟩,
    .perform 1 (validated "a1" true) 2000 2001,
    .perform 1 (owned "a1" (some "alice")) 2002 0,
    .perform 1 (queried selectByUsername "alice" (some [Service.aliceRow])) 0 0,
    .perform 1 (located "/janus/7/") 0 0,
    .perform 1 (sent (RequestMapper.postRequest .createRoom
      (CreateRoomRequest.new.toJson dumpLib) "janus" "/janus/7/") none) 0 0]).map .service

/-- A context that has been stopped stays stopped. -/
theorem observed_stopped {r : Outcome Exception Unit} (ended : s.stage = .ended r)
    (stopped : s.context.stopped = true) :
    ∀ x ∈ (machine lib sha host maxSessions joinable).observe (fun s e => (s.sighting e).toList)
      s fs, x.context.stopped = true := by
  induction fs generalizing s with
  | nil => exact fun x mem => by cases mem
  | cons e fs ih =>
    intro x mem
    rcases List.mem_append.1 mem with new | rest
    · cases e with
      | start e => cases new
      | service e =>
        obtain ⟨record, -, rfl⟩ := Option.map_eq_some_iff.1 (Option.mem_toList.1 new)
        exact stopped
    · cases moved : (machine lib sha host maxSessions joinable).step s e with
      | none =>
        rw [moved] at rest
        cases rest
      | some u =>
        rw [moved] at rest
        have taken : s.step lib sha host e = some u := moved
        cases e with
        | start e =>
          obtain ⟨impossible, -⟩ := start_cases taken
          rw [ended] at impossible
          cases impossible
        | service e =>
          obtain ⟨-, service, -, rfl⟩ := service_cases taken
          exact @ih { s with service } ended stopped x rest

theorem pastOf_append (i : Nat) (h h' : List Record) :
    pastOf i (h ++ h') = pastOf i h ++ pastOf i h' := pastBy_append h h'

/-- Two handlers of one request that have been answered the same are at the same place. -/
theorem same_program {s t : Service} {gs gs' : List ServiceEvent}
    (run : (Lynks.service lib sha host maxSessions).Run gs s)
    (run' : (Lynks.service lib sha host maxSessions).Run gs' t) {i : Nat} {request : HttpRequest}
    {p : Handler HttpResponse} {r : Outcome Exception HttpResponse}
    (found : s.inFlight[i]? = some ⟨request, p⟩) (found' : t.inFlight[i]? = some ⟨request, .done r⟩)
    (same : pastOf i (Service.history lib sha host maxSessions gs) =
      pastOf i (Service.history lib sha host maxSessions gs')) : p = .done r := by
  have sound (request : HttpRequest) := Prog.wp_after
    (Prog.after_nil (Router.handleRequest lib sha host request))
  have ended := Service.ended_of_run sound run' found'
  have within : p.wp _ _ _ := Service.within_of_run sound run found
  rw [same] at within
  cases p with
  | done r' =>
    have here : some _ = some _ := within.symm.trans ended
    exact Option.some.inj here
  | act o k =>
    obtain ⟨⟨k', here⟩, -⟩ := within
    have clash : some _ = some _ := here.symm.trans ended
    cases clash

theorem told_of_quiet {past : List Event} (quiet : Quiet past) : told lib past = none := by
  refine Option.eq_none_iff_forall_ne_some.2 fun message got => ?_
  rcases Service.told_cases got with ⟨before, outgoing, body, rfl, -⟩ | ⟨before, tx, rfl⟩
  · have asked := quiet (sent outgoing (some body)) (by simp)
    cases asked
  · have asked := quiet (waited tx (some message)) (by simp)
    cases asked

/-- What is left of a run after the stop. -/
theorem sightings_later (run : (machine lib sha host maxSessions joinable).Run es s)
    (stopped : s.context.stopped = true) :
    ∃ rest, sightings lib sha host maxSessions joinable (es ++ fs) =
        sightings lib sha host maxSessions joinable es ++ rest ∧
      ∀ x ∈ rest, x.context.stopped = true := by
  obtain ⟨r, ended⟩ := (tracked_of_run run).accounts.ended stopped
  exact ⟨_, Machine.observe_append run, observed_stopped ended stopped⟩

/-- A handler that heard from the context's thread last did so before the stop. -/
theorem idle_after_stop (later : (machine lib sha host maxSessions joinable).Run (es ++ fs) t)
    {rest : List Sighting} (split : sightings lib sha host maxSessions joinable (es ++ fs) =
      sightings lib sha host maxSessions joinable es ++ rest)
    (stopped : ∀ x ∈ rest, x.context.stopped = true) {i : Nat}
    (heard : Heard (pastOf i
      ((sightings lib sha host maxSessions joinable (es ++ fs)).map (·.record)))) :
    pastOf i (rest.map (·.record)) = [] := by
  obtain ⟨before, e, last, awaits⟩ := heard
  rcases List.eq_nil_or_concat (pastOf i (rest.map (·.record))) with none | ⟨init, e', some⟩
  · exact none
  · rw [List.concat_eq_append] at some
    rw [split, List.map_append, pastOf_append, some, ← List.append_assoc] at last
    obtain ⟨-, same⟩ := List.append_inj' last rfl
    obtain rfl := List.singleton_inj.1 same
    have mem : e' ∈ pastOf i (rest.map (·.record)) := by simp [some]
    obtain ⟨record, recorded, -, rfl⟩ := mem_pastBy.1 mem
    obtain ⟨x, inside, rfl⟩ := List.mem_map.1 recorded
    have whole : x ∈ sightings lib sha host maxSessions joinable (es ++ fs) := by
      rw [split]
      exact List.mem_append_right _ inside
    have running := (sighting_cases later whole).2 awaits
    rw [stopped x inside] at running
    cases running

/-- A handler that ends after the stop has asked nothing of the context. -/
theorem quiet_of_late (run : (machine lib sha host maxSessions joinable).Run es s)
    (stopped : s.context.stopped = true)
    (later : (machine lib sha host maxSessions joinable).Run (es ++ fs) t) {i : Nat}
    {request : HttpRequest} {r : Outcome Exception HttpResponse}
    (found : t.service.inFlight[i]? = some ⟨request, .done r⟩)
    (pending : s.service.inFlight[i]? ≠ some ⟨request, .done r⟩) :
    Quiet (pastOf i ((sightings lib sha host maxSessions joinable (es ++ fs)).map (·.record))) := by
  obtain ⟨gs, matched, same⟩ := service_history run
  obtain ⟨gs', matched', same'⟩ := service_history later
  obtain ⟨rest, split, silent⟩ : ∃ rest,
      sightings lib sha host maxSessions joinable (es ++ fs) = _ ∧ _ := sightings_later run stopped
  have settled : Settled (pastOf i (Service.history lib sha host maxSessions gs')) :=
    Service.ended_of_run handleRequest_settled matched' found
  rw [← same'] at settled
  refine settled.resolve_right fun heard => ?_
  -- so the handler has done nothing since the stop, and had ended by then
  have unmoved : pastOf i (Service.history lib sha host maxSessions gs) =
      pastOf i (Service.history lib sha host maxSessions gs') := by
    rw [← same, ← same', split, List.map_append, pastOf_append,
      idle_after_stop later split silent heard, List.append_nil]
  obtain ⟨before, e, last, -⟩ := heard
  have recorded : e ∈ pastOf i (Service.history lib sha host maxSessions gs) := by
    rw [unmoved, ← same', last]
    simp
  obtain ⟨x, mem, rfl, -⟩ := mem_pastBy.1 recorded
  have mem' : x ∈ Service.history lib sha host maxSessions gs' := by
    rw [← same', split, List.map_append, same]
    exact List.mem_append_left _ mem
  obtain ⟨⟨request', p⟩, known, own⟩ := Service.handler_of_record matched mem
  obtain rfl : request' = request := own.trans (Service.request_of_record matched' mem' found)
  obtain rfl := same_program matched matched' known found unmoved
  exact pending known

/-- On the video room a handler that has asked nothing of the context can only refuse. -/
theorem refused_of_quiet {gs : List ServiceEvent} {u : Service}
    (run : (Lynks.service lib sha host maxSessions).Run gs u) {i : Nat} {request : HttpRequest}
    {r : Outcome Exception HttpResponse} (found : u.inFlight[i]? = some ⟨request, .done r⟩)
    (quiet : Quiet (pastOf i (Service.history lib sha host maxSessions gs)))
    (endpoint : request.AsksJanus) : r = .ok (Router.badRequest request) := by
  have concluded := Service.concludes_of_run run found
  cases r with
  | ok response =>
    rcases concluded with ⟨-, rfl⟩ | ⟨unknown, -⟩
    · rw [verdict_eq_none endpoint (told_of_quiet quiet)]
      rfl
    · exact absurd (Or.inr endpoint) unknown
  | throws e =>
    obtain ⟨login, -⟩ := concluded
    rcases endpoint with create | list
    · simp [login] at create
    · simp [login] at list
  | undefined =>
    obtain ⟨-, message, got, -⟩ := concluded
    rw [told_of_quiet quiet] at got
    cases got

/-- **Nobody is answered any more.** Once `start` has failed and stopped the context, a handler
that ends has asked nothing of Janus, and on the video room it refuses. One that has asked for
the path, before or after, never ends. -/
theorem unanswered_after_stop (run : (machine lib sha host maxSessions joinable).Run es s)
    (stopped : s.context.stopped = true)
    (later : (machine lib sha host maxSessions joinable).Run (es ++ fs) t) {i : Nat}
    {request : HttpRequest} {r : Outcome Exception HttpResponse}
    (found : t.service.inFlight[i]? = some ⟨request, .done r⟩)
    (pending : s.service.inFlight[i]? ≠ some ⟨request, .done r⟩) :
    Quiet (pastOf i ((sightings lib sha host maxSessions joinable (es ++ fs)).map (·.record))) ∧
      (request.AsksJanus → r = .ok (Router.badRequest request)) := by
  have quiet := quiet_of_late run stopped later found pending
  obtain ⟨gs, matched, same⟩ := service_history later
  refine ⟨quiet, fun endpoint => ?_⟩
  rw [same] at quiet
  exact refused_of_quiet matched found quiet endpoint

/-- A request with a token that nobody has. -/
def strangerEvents : List StartingEvent :=
  [.service (.arrive ⟨"/create", 11, some "zz", ""⟩),
    .service (.perform 0 (validated "zz" false) 1000 1000)]

theorem unanswered_after_stop_stranger :
    ∃ t, (machine dumpLib Service.constantSha "janus" 10 true).Run
        ([StartingEvent.start (.connected .resolveFailed)] ++ strangerEvents) t ∧
      t.service.inFlight[0]? = some ⟨⟨"/create", 11, some "zz", ""⟩,
        .done (.ok (Router.badRequest ⟨"/create", 11, some "zz", ""⟩))⟩ := by
  obtain ⟨s, run, stopped, nobody⟩ : ∃ s, (machine dumpLib Service.constantSha "janus" 10 true).Run
      [.start (.connected .resolveFailed)] s ∧ s.context.stopped = true ∧
        s.service.inFlight[0]? = none := ⟨_, rfl, rfl, rfl⟩
  obtain ⟨t, r, later, found⟩ : ∃ t r, (machine dumpLib Service.constantSha "janus" 10 true).Run
      ([StartingEvent.start (.connected .resolveFailed)] ++ strangerEvents) t ∧
      t.service.inFlight[0]? = some ⟨⟨"/create", 11, some "zz", ""⟩, .done r⟩ := ⟨_, _, rfl, rfl⟩
  have pending : s.service.inFlight[0]? ≠ some ⟨⟨"/create", 11, some "zz", ""⟩, .done r⟩ := by
    simp [nobody]
  obtain ⟨-, refused⟩ := unanswered_after_stop run stopped later found pending
  rw [refused (Or.inl rfl)] at found
  exact ⟨t, later, found⟩

/-! ## While the context runs -/

/-- What the context admits the handlers do beside `start`. -/
theorem exec_service {gs : List ServiceEvent} {service : Service}
    (admitted : ∀ e ∈ gs, s.context.admits e = true)
    (ran : (Lynks.service lib sha host maxSessions).exec s.service gs = some service) :
    (machine lib sha host maxSessions joinable).exec s (gs.map .service) =
      some { s with service } := by
  have moves : ∀ (v : Service) (e : ServiceEvent) (w : Service) (a : Starting),
      a = { s with service := v } → s.context.admits e = true →
      (Lynks.service lib sha host maxSessions).step v e = some w →
      ∃ b, (machine lib sha host maxSessions joinable).step a (.service e) = some b ∧
        b = { s with service := w } := by
    rintro v e w a rfl allowed taken
    have moved : v.step lib sha host e = some w := taken
    exact ⟨_, by simp [machine, step, allowed, moved], rfl⟩
  obtain ⟨t, ran', rfl⟩ := Machine.exec_lift moves admitted (s := s.service) rfl (by simpa using ran)
  exact ran'

/-- A turn on the path of a context that runs. -/
theorem admits_turns {c : Context} {token owner : String} {turns : List Turn}
    (running : c.stopped = false) (paths : ∀ turn ∈ turns, turn.path = c.getPath) (i : Nat) :
    ∀ e ∈ Service.turnEvents token owner i turns, c.admits e = true := by
  induction turns generalizing i with
  | nil => exact fun e mem => by cases mem
  | cons turn turns ih =>
    intro e mem
    rcases List.mem_append.1 mem with here | later
    · have path := paths turn (by simp)
      simp only [Turn.answers, List.map_cons, List.map_nil, List.mem_cons, List.not_mem_nil,
        or_false, Service.performedBy] at here
      rcases here with rfl | rfl | rfl | rfl | rfl | rfl
      · rfl
      · rfl
      · rfl
      · rfl
      · exact decide_eq_true path
      · simp [Context.admits, sent, running]
    · exact ih (fun turn mem => paths turn (by simp [mem])) (i + 1) e later

/-- In every state in which the context has not been stopped, the conversation of a client with a
password works, on the path there is. -/
theorem conversation_while_running {login : HttpRequest} {username password token : String}
    {rows : List Row} {user : User} {now : UInt64} {turns : List Turn}
    (run : (machine lib sha host maxSessions joinable).Run es s)
    (running : s.context.stopped = false)
    (room : s.service.store.sessions.length < s.service.store.maxSessions.toNat)
    (fresh : ∀ session ∈ s.service.store.sessions, session.token ≠ token)
    (path : login.target = "/login")
    (credentials : Credentials lib login.body username password) (resolves : Resolves rows user)
    (same : user.password = hash256 sha password)
    (granted : ∀ turn ∈ turns, turn.Granted lib host token user.username)
    (paths : ∀ turn ∈ turns, turn.path = s.context.getPath)
    (spaced : Turn.Spaced now turns) :
    ∃ t, (machine lib sha host maxSessions joinable).Run (es ++ (Service.conversation
          s.service.inFlight.length login username user.username token rows now turns).map
            .service) t ∧
      t.context = s.context ∧ t.service.inFlight = s.service.inFlight ++
        Service.loggedIn login token :: turns.map Turn.served := by
  obtain ⟨service, ran, answered, -⟩ : ∃ t, (Lynks.service lib sha host maxSessions).exec
      s.service _ = _ ∧ _ :=
    Service.conversation_exec room fresh path credentials resolves same granted spaced
  have admitted : ∀ e ∈ Service.conversation s.service.inFlight.length login username
      user.username token rows now turns, s.context.admits e = true := by
    intro e mem
    rcases List.mem_append.1 mem with opening | later
    · simp only [Service.loginEvents, List.mem_cons, List.not_mem_nil, or_false] at opening
      rcases opening with rfl | rfl | rfl <;> rfl
    · exact admits_turns running paths _ e later
  refine ⟨{ s with service }, ?_, rfl, answered⟩
  rw [Machine.Run, Machine.exec_append, run]
  exact exec_service admitted ran

/-- Later on some request on the video room is answered 200 that is not answered yet. -/
def CanServe (lib : Nlohmann) (sha : Sha256) (host : String) (maxSessions : UInt16)
    (joinable : Bool) (es : List StartingEvent) (s : Starting) : Prop :=
  ∃ (fs : List StartingEvent) (t : Starting) (i : Nat) (request : HttpRequest)
    (response : HttpResponse), (machine lib sha host maxSessions joinable).Run (es ++ fs) t ∧
      request.AsksJanus ∧ response.result = .ok ∧
      t.service.inFlight[i]? = some ⟨request, .done (.ok response)⟩ ∧
      s.service.inFlight[i]? ≠ some ⟨request, .done (.ok response)⟩

/-- **Somebody can be served exactly as long as the context runs.** In every state that can be
reached, with a client who has a password and something to ask that Janus would answer: a request
on the video room can still be answered 200 if and only if `start` has not stopped the context. -/
theorem can_serve_iff_running {login : HttpRequest} {username password token : String}
    {rows : List Row} {user : User} {now : UInt64} {turn : Turn}
    (run : (machine lib sha host maxSessions joinable).Run es s)
    (room : s.service.store.sessions.length < s.service.store.maxSessions.toNat)
    (fresh : ∀ session ∈ s.service.store.sessions, session.token ≠ token)
    (path : login.target = "/login")
    (credentials : Credentials lib login.body username password) (resolves : Resolves rows user)
    (same : user.password = hash256 sha password)
    (granted : turn.Granted lib host token user.username) (here : turn.path = s.context.getPath)
    (soon : InTime now turn.checked) (still : InTime turn.renewed turn.lookedUp) :
    CanServe lib sha host maxSessions joinable es s ↔ s.context.stopped = false := by
  constructor
  · rintro ⟨fs, t, i, request, response, later, endpoint, accepted, found, pending⟩
    by_contra stopped
    have quiet := quiet_of_late run (by simpa using stopped) later found pending
    obtain ⟨gs, matched, same⟩ := service_history later
    rw [same] at quiet
    obtain rfl := Outcome.ok.inj (refused_of_quiet matched found quiet endpoint)
    cases accepted
  · intro running
    obtain ⟨t, served, -, answered⟩ : ∃ t : Starting, _ ∧ _ ∧ t.service.inFlight =
        s.service.inFlight ++ Service.loggedIn login token :: [turn].map Turn.served :=
      conversation_while_running run running room fresh path credentials resolves same
        (by simpa using granted) (by simpa using here) ⟨soon, still, trivial⟩
    have last : t.service.inFlight[s.service.inFlight.length + 1]? = some turn.served := by
      simp [answered]
    refine ⟨_, t, s.service.inFlight.length + 1, turn.request, _, served, granted.endpoint, rfl,
      last, ?_⟩
    rw [List.getElem?_eq_none (by omega)]
    exact fun impossible => by cases impossible

/-- A start that goes through. -/
def startedEvents : List StartingEvent :=
  [.start (.connected .connected), .start (.created (idReply "1")),
    .start (.attached (idReply "2"))]

theorem can_serve_iff_running_started :
    ∃ s, (machine dumpLib Service.constantSha "janus" 10 true).Run startedEvents s ∧
      CanServe dumpLib Service.constantSha "janus" 10 true startedEvents s := by
  obtain ⟨s, run, running, path, room, empty⟩ : ∃ s,
      (machine dumpLib Service.constantSha "janus" 10 true).Run startedEvents s ∧
      s.context.stopped = false ∧ s.context.getPath = "/janus/1/2" ∧
      s.service.store.sessions.length < s.service.store.maxSessions.toNat ∧
      s.service.store.sessions = [] := ⟨_, rfl, rfl, rfl, by decide, rfl⟩
  have soon : InTime 1000 (Service.createTurn 2000).checked := by simp [InTime, Service.createTurn]
  have still : InTime (Service.createTurn 2000).renewed (Service.createTurn 2000).lookedUp := by
    simp [InTime, Service.createTurn]
  exact ⟨s, run, (can_serve_iff_running run room (by simp [empty]) Service.aliceLogin_target
    Service.aliceLogin_credentials Service.aliceRow_resolves rfl
    (Service.createTurn_granted 2000) path.symm soon still).2 running⟩

end Starting

end Lynks
