import Lynks.Lib.Stateful
import Lynks.Janus.Participants
import Lynks.Network.Replies
import Lynks.Network.Tokens

/-!
# Starting the Janus context

`start` connects, creates a session and attaches the plugin of the video rooms, and stops the
context when one of these fails. It is spawned detached: an exception ends it and is dropped.
A reply that cannot be read is such an exception, so it leaves the context running half
initialised; `start_finishes_iff` has the replies with which that does not happen.
-/

namespace Lynks.Janus
set_option autoImplicit false

open Lib Stateful

/-- What `janus` keeps while it starts. -/
structure Context where
  sessionPath : String
  videoroomPath : String
  /-- `long_poll_socket.is_open()` -/
  socketOpen : Bool
  /-- `work_guard` keeps the context from running out of work -/
  workGuard : Bool
  /-- `context.stopped()` -/
  stopped : Bool
  /-- `context_thread.joinable()` -/
  joinable : Bool
  /-- `long_poll_task` has been spawned -/
  polling : Bool
  deriving DecidableEq, Repr

/-- The constructor spawns `start` before it stores the thread, so either may come first. -/
def Context.fresh (joinable : Bool) : Context :=
  { sessionPath := "", videoroomPath := "", socketOpen := false, workGuard := true,
    stopped := false, joinable, polling := false }

/-- How the two asynchronous operations of `connect` end. -/
inductive ConnectResult where
  | resolveFailed
  | connectFailed (socketOpen : Bool)
  | connected
  deriving DecidableEq, Repr

/-- What Janus gives back to one request: a body or nothing on the temporary connection, and
what waiting for a transaction in the response buffer returns after an `ack`. -/
structure Reply where
  body : Option String
  event : String → Option ResponseMessage

/-- The world in which a request gets this reply. -/
def Reply.world (reply : Reply) : World where
  sendQuery _ _ := none
  newSession _ := none
  validateSession _ := false
  getUsernameByToken _ := none
  getPath := ""
  sendTemporary _ := reply.body
  waitForTransaction := reply.event

/-- All that `start` meets: the end of `connect`, the numbers drawn for the two transactions, and
the replies to the two requests. -/
structure Startup where
  connect : ConnectResult
  sessionDraws : UInt64 × UInt64
  videoroomDraws : UInt64 × UInt64
  session : Reply
  videoroom : Reply

variable (lib : Nlohmann) (sha : Sha256) (host : String)

/-- `janus::stop`, called on the thread of the context: it joins itself if it joins at all. -/
def stop : Stateful Context Exception Unit := do
  modify fun c => { c with socketOpen := false }
  modify fun c => { c with workGuard := false }
  modify fun c => { c with stopped := true }
  let c ← get
  if c.joinable then lift (.throws .deadlock) else pure ()

/-- `janus::connect`. -/
def connect : ConnectResult → Stateful Context Exception Bool
  | .resolveFailed => pure false
  | .connectFailed socketOpen => do
    modify fun c => { c with socketOpen }
    pure false
  | .connected => do
    modify fun c => { c with socketOpen := true }
    pure true

/-- `janus::generate_string_id`. -/
def generateStringId (draws : UInt64 × UInt64) : String :=
  RandomEngine.generateToken sha draws.1 draws.2

/-- `janus::init_videoroom`. -/
def initVideoroom (env : Startup) : Stateful Context Exception Bool := do
  let msgRequest :=
    AttachPluginRequest.new (generateStringId sha env.videoroomDraws) "janus.plugin.videoroom"
  let c ← get
  let request ← lift (RequestMapper.getRequest .activateVidroomPlugin
    (some (msgRequest.toJson lib)) host ("/janus/" ++ c.sessionPath))
  let response ← lift ((sendRequest lib request).run env.videoroom.world.answer)
  match response with
  | none => pure false
  | some response => do
    let msgResponse ← lift (AttachPluginResponse.new lib response.body)
    modify fun c => { c with videoroomPath := msgResponse.pluginHandle }
    pure true

/-- `janus::init_session`, which `init` calls. -/
def initSession (env : Startup) : Stateful Context Exception Bool := do
  let msgRequest := CreateSessionRequest.new (generateStringId sha env.sessionDraws)
  let request ← lift (RequestMapper.getRequest .createSession (some (msgRequest.toJson lib)) host
    "/janus")
  let response ← lift ((sendRequest lib request).run env.session.world.answer)
  match response with
  | none => pure false
  | some response => do
    let msgResponse ← lift (CreateSessionResponse.new lib response.body)
    modify fun c => { c with sessionPath := msgResponse.sessionId }
    initVideoroom lib sha host env

/-- `janus::start`. -/
def start (env : Startup) : Stateful Context Exception Unit := do
  let connected ← connect env.connect
  if !connected then stop
  else do
    let inited ← initSession lib sha host env
    if !inited then stop
    else modify fun c => { c with polling := true }

/-- `janus::get_path`. -/
def Context.getPath (c : Context) : String := "/janus/" ++ c.sessionPath ++ "/" ++ c.videoroomPath

/-! ## The ids in the replies -/

/-- `data.id` of a message. -/
def dataId? (json : Json) : Option Json := (json.field? "data").bind (Json.field? "id")

/-- A text that the constructors of both responses accept, and the number they take the id
from. -/
def IdOf (text : String) (id : Json) : Prop :=
  ∃ json, lib.parse? text = some json ∧ (json.stringField? "janus").isSome = true ∧
    (json.stringField? "transaction").isSome = true ∧ dataId? json = some id ∧ id.isNumber = true

/-- What `send_request` makes of a reply. -/
def Reply.answer (reply : Reply) : Option ResponseMessage :=
  reply.body.bind fun body =>
    (ResponseMessage.parseJson lib body).value?.bind fun msg =>
      if msg.eventType = "ack" then reply.event msg.transaction else some msg

/-- The reply is answered with an id that is any number. -/
def Reply.Accepted (reply : Reply) : Prop :=
  ∃ msg id, reply.answer lib = some msg ∧ IdOf lib msg.body id

/-- The reply is answered with the id `k`. -/
def Reply.HasId (reply : Reply) (k : Nat) : Prop :=
  ∃ msg id, reply.answer lib = some msg ∧ IdOf lib msg.body id ∧ k < UInt64.size ∧
    id.number? = some (k : ℚ)

variable {lib sha host}

/-- A message that is no `ack` is the answer. -/
theorem Reply.answer_of_body {reply : Reply} {body : String} {msg : ResponseMessage}
    (given : reply.body = some body) (read : ResponseMessage.parseJson lib body = .ok msg)
    (other : msg.eventType ≠ "ack") : reply.answer lib = some msg := by
  simp [Reply.answer, given, read, Outcome.value?, other]

theorem readDataId_cases (json : Json) :
    (∃ id n, dataId? json = some id ∧ id.isNumber = true ∧ ReadsAs lib id n ∧
      readDataId lib json = .ok (toString n.toNat)) ∨
    ((∀ id, dataId? json = some id → id.isNumber = false) ∧
      ∃ e, readDataId lib json = .throws e) := by
  unfold readDataId dataId?
  rcases json.subscript_cases "data" with
    ⟨data, read, found⟩ | ⟨read, missing⟩ | ⟨e, thrown, missing⟩
  · rcases data.subscript_cases "id" with ⟨id, read', here⟩ | ⟨read', absent⟩ | ⟨e, thrown', absent⟩
    · rcases id.getUInt64_cases lib with ⟨number, n, cast⟩ | ⟨other, thrown⟩
      · exact Or.inl ⟨id, n, by simp [found, here], number, cast, by simp [read, read', cast]⟩
      · refine Or.inr ⟨fun id' same => ?_, .typeError 302, by simp [read, read', thrown]⟩
        obtain rfl : id = id' := by simpa [found, here] using same
        exact other
    · exact Or.inr ⟨by simp [found, absent], .typeError 302, by simp [read, read', Json.getUInt64]⟩
    · exact Or.inr ⟨by simp [found, absent], e, by simp [read, thrown']⟩
  · exact Or.inr ⟨by simp [missing], .typeError 302, by rw [read]; rfl⟩
  · exact Or.inr ⟨by simp [missing], e, by simp [thrown]⟩

/-- Both constructors read `janus`, `transaction` and `data.id`, and throw without one of them. -/
theorem readReply_cases {α : Type} (make : String → String → String → α) (text : String) :
    (∃ janus transaction id n, IdOf lib text id ∧ ReadsAs lib id n ∧
      (lib.parse text >>= fun json => json.readString "janus" >>= fun janus =>
        json.readString "transaction" >>= fun transaction => readDataId lib json >>= fun id =>
          .ok (make janus transaction id)) = .ok (make janus transaction (toString n.toNat))) ∨
    ((∀ id, ¬ IdOf lib text id) ∧ ∃ e,
      (lib.parse text >>= fun json => json.readString "janus" >>= fun janus =>
        json.readString "transaction" >>= fun transaction => readDataId lib json >>= fun id =>
          .ok (make janus transaction id)) = .throws e) := by
  unfold IdOf Nlohmann.parse
  cases parsed : lib.parse? text with
  | none => exact Or.inr ⟨by simp, .parseError, rfl⟩
  | some json =>
    rcases json.readString_cases "janus" with ⟨janus, first, named⟩ | ⟨e, thrown, unnamed⟩
    · rcases json.readString_cases "transaction" with ⟨tx, second, owned⟩ | ⟨e, thrown, unowned⟩
      · rcases @readDataId_cases lib json with
          ⟨id, n, found, number, cast, read⟩ | ⟨other, e, thrown⟩
        · exact Or.inl ⟨janus, tx, id, n, ⟨json, rfl, by simp [named], by simp [owned], found,
            number⟩, cast, by simp [first, second, read]⟩
        · refine Or.inr ⟨?_, e, by simp [first, second, thrown]⟩
          rintro id ⟨json', same, -, -, found, number⟩
          obtain rfl := Option.some.inj same
          rw [other id found] at number
          cases number
      · exact Or.inr ⟨by simp [unowned], e, by simp [first, thrown]⟩
    · exact Or.inr ⟨by simp [unnamed], e, by simp [thrown]⟩

theorem CreateSessionResponse.new_cases (text : String) :
    (∃ r id n, new lib text = .ok r ∧ IdOf lib text id ∧ ReadsAs lib id n ∧
      r.sessionId = toString n.toNat) ∨
    ((∀ id, ¬ IdOf lib text id) ∧ ∃ e, new lib text = .throws e) := by
  rcases @readReply_cases lib _ (CreateSessionResponse.mk text) text with
    ⟨janus, transaction, id, n, carries, read, made⟩ | ⟨none, e, thrown⟩
  · exact Or.inl ⟨_, id, n, made, carries, read, rfl⟩
  · exact Or.inr ⟨none, e, thrown⟩

theorem AttachPluginResponse.new_cases (text : String) :
    (∃ r id n, new lib text = .ok r ∧ IdOf lib text id ∧ ReadsAs lib id n ∧
      r.pluginHandle = toString n.toNat) ∨
    ((∀ id, ¬ IdOf lib text id) ∧ ∃ e, new lib text = .throws e) := by
  rcases @readReply_cases lib _ (AttachPluginResponse.mk text) text with
    ⟨janus, transaction, id, n, carries, read, made⟩ | ⟨none, e, thrown⟩
  · exact Or.inl ⟨_, id, n, made, carries, read, rfl⟩
  · exact Or.inr ⟨none, e, thrown⟩

/-! ## How the parts end -/

/-- Where `stop` leaves the context, whether or not it throws. -/
def Context.afterStop (c : Context) : Context :=
  { c with socketOpen := false, workGuard := false, stopped := true }

theorem stop_run (c : Context) : ∃ r, stop c = (r, c.afterStop) := by
  cases joins : c.joinable with
  | true => exact ⟨.throws .deadlock, by simp [stop, joins, Context.afterStop]⟩
  | false => exact ⟨.ok (), by simp [stop, joins, Context.afterStop]⟩

theorem connect_run (result : ConnectResult) (c : Context) :
    ∃ socketOpen, connect result c =
      (.ok (result = .connected), { c with socketOpen }) := by
  cases result with
  | resolveFailed => exact ⟨c.socketOpen, rfl⟩
  | connectFailed socketOpen => exact ⟨socketOpen, rfl⟩
  | connected => exact ⟨true, rfl⟩

variable {env : Startup}

/-- The second request: refused, answered with an id, or answered with something else. -/
theorem initVideoroom_cases (lib : Nlohmann) (sha : Sha256) (host : String) (env : Startup)
    (c : Context) :
    (env.videoroom.answer lib = none ∧ initVideoroom lib sha host env c = (.ok false, c)) ∨
    (∃ msg id n, env.videoroom.answer lib = some msg ∧ IdOf lib msg.body id ∧ ReadsAs lib id n ∧
      initVideoroom lib sha host env c =
        (.ok true, { c with videoroomPath := toString n.toNat })) ∨
    (∃ msg e, env.videoroom.answer lib = some msg ∧ (∀ id, ¬ IdOf lib msg.body id) ∧
      initVideoroom lib sha host env c = (.throws e, c)) := by
  have asked : ∀ request, (sendRequest lib request).run env.videoroom.world.answer =
      .ok (env.videoroom.answer lib) := fun request => sendRequest_run request
  obtain ⟨request, built⟩ := RequestMapper.getRequest_some .activateVidroomPlugin
    ((AttachPluginRequest.new (generateStringId sha env.videoroomDraws)
      "janus.plugin.videoroom").toJson lib) host ("/janus/" ++ c.sessionPath)
  simp only [initVideoroom, get_bind, built, lift_ok_bind, asked]
  cases answer : env.videoroom.answer lib with
  | none => exact Or.inl ⟨rfl, rfl⟩
  | some msg =>
    rcases @AttachPluginResponse.new_cases lib msg.body with
      ⟨r, id, n, made, carries, cast, handle⟩ | ⟨none, e, thrown⟩
    · refine Or.inr (Or.inl ⟨msg, id, n, rfl, carries, cast, ?_⟩)
      simp [made, handle]
    · refine Or.inr (Or.inr ⟨msg, e, rfl, none, ?_⟩)
      simp [thrown]

/-- The first request: refused, answered with an id and followed by the second, or answered with
something else. -/
theorem initSession_cases (lib : Nlohmann) (sha : Sha256) (host : String) (env : Startup)
    (c : Context) :
    (env.session.answer lib = none ∧ initSession lib sha host env c = (.ok false, c)) ∨
    (∃ msg id n, env.session.answer lib = some msg ∧ IdOf lib msg.body id ∧ ReadsAs lib id n ∧
      initSession lib sha host env c =
        initVideoroom lib sha host env { c with sessionPath := toString n.toNat }) ∨
    (∃ msg e, env.session.answer lib = some msg ∧ (∀ id, ¬ IdOf lib msg.body id) ∧
      initSession lib sha host env c = (.throws e, c)) := by
  have asked : ∀ request, (sendRequest lib request).run env.session.world.answer =
      .ok (env.session.answer lib) := fun request => sendRequest_run request
  obtain ⟨request, built⟩ := RequestMapper.getRequest_some .createSession
    ((CreateSessionRequest.new (generateStringId sha env.sessionDraws)).toJson lib) host "/janus"
  simp only [initSession, built, lift_ok_bind, asked]
  cases answer : env.session.answer lib with
  | none => exact Or.inl ⟨rfl, rfl⟩
  | some msg =>
    rcases @CreateSessionResponse.new_cases lib msg.body with
      ⟨r, id, n, made, carries, cast, path⟩ | ⟨none, e, thrown⟩
    · refine Or.inr (Or.inl ⟨msg, id, n, rfl, carries, cast, ?_⟩)
      simp [made, path]
    · refine Or.inr (Or.inr ⟨msg, e, rfl, none, ?_⟩)
      simp [thrown]

/-- `start` after a connection that `connect` has made. -/
theorem start_connected (connected : env.connect = .connected) (c : Context) :
    start lib sha host env c = (initSession lib sha host env >>= fun inited =>
      if !inited then stop else modify fun c => { c with polling := true })
        { c with socketOpen := true } := by
  have made : connect env.connect c = (.ok true, { c with socketOpen := true }) := by
    rw [connected]
    rfl
  exact bind_of_ok made

/-- `start` when `connect` returns false. -/
theorem start_unconnected (unconnected : env.connect ≠ .connected) (c : Context) :
    ∃ r socketOpen, start lib sha host env c = (r, { c with socketOpen }.afterStop) := by
  obtain ⟨socketOpen, ended⟩ := connect_run env.connect c
  obtain ⟨r, stops⟩ := stop_run { c with socketOpen }
  refine ⟨r, socketOpen, ?_⟩
  rw [start, bind_of_ok ended]
  simpa [unconnected] using stops

/-! ## The states `start` finishes in -/

/-- The context polls for events, with the ids of both replies in its paths. -/
structure Initialised (lib : Nlohmann) (env : Startup) (r : Outcome Exception Unit)
    (c : Context) : Prop where
  returned : r = .ok ()
  session : ∃ k, env.session.HasId lib k ∧ c.sessionPath = toString k
  videoroom : ∃ k, env.videoroom.HasId lib k ∧ c.videoroomPath = toString k
  polling : c.polling = true
  running : c.stopped = false

/-- The context has been stopped and polls for nothing. -/
structure Stopped (c : Context) : Prop where
  stopped : c.stopped = true
  workGuard : c.workGuard = false
  socketOpen : c.socketOpen = false
  polling : c.polling = false

theorem stopped_afterStop {c : Context} (idle : c.polling = false) : Stopped c.afterStop :=
  ⟨rfl, rfl, rfl, idle⟩

/-- **How `start` ends.** It stops the context when something is refused; it goes through on two
answers with an id; it throws on an answer without one, and the context runs on. -/
theorem start_cases (joinable : Bool) :
    (∃ r c, start lib sha host env (.fresh joinable) = (r, c) ∧ Stopped c ∧
      (env.connect ≠ .connected ∨ env.session.answer lib = none ∨
        env.session.Accepted lib ∧ env.videoroom.answer lib = none)) ∨
    (∃ msg₁ id₁ n₁ msg₂ id₂ n₂ c, start lib sha host env (.fresh joinable) = (.ok (), c) ∧
      env.connect = .connected ∧
      (env.session.answer lib = some msg₁ ∧ IdOf lib msg₁.body id₁ ∧ ReadsAs lib id₁ n₁) ∧
      (env.videoroom.answer lib = some msg₂ ∧ IdOf lib msg₂.body id₂ ∧ ReadsAs lib id₂ n₂) ∧
      c.sessionPath = toString n₁.toNat ∧ c.videoroomPath = toString n₂.toNat ∧
      c.polling = true ∧ c.stopped = false) ∨
    (∃ e c, start lib sha host env (.fresh joinable) = (.throws e, c) ∧ c.stopped = false ∧
      env.connect = .connected ∧ env.session.answer lib ≠ none ∧
      (¬ env.session.Accepted lib ∨
        env.videoroom.answer lib ≠ none ∧ ¬ env.videoroom.Accepted lib)) := by
  have unread {reply : Reply} {msg : ResponseMessage} (answer : reply.answer lib = some msg)
      (none : ∀ id, ¬ IdOf lib msg.body id) : ¬ reply.Accepted lib := by
    rintro ⟨msg', id, answer', carries⟩
    obtain rfl := Option.some.inj (answer.symm.trans answer')
    exact none id carries
  by_cases connected : env.connect = .connected
  swap
  · obtain ⟨r, socketOpen, ended⟩ := start_unconnected connected (.fresh joinable)
    exact Or.inl ⟨r, _, ended, stopped_afterStop rfl, Or.inl connected⟩
  let c : Context := { Context.fresh joinable with socketOpen := true }
  have goes : start lib sha host env (.fresh joinable) = (initSession lib sha host env >>=
      fun inited => if !inited then stop else modify fun c => { c with polling := true }) c :=
    start_connected connected _
  rcases initSession_cases lib sha host env c with
    ⟨none, refused⟩ | ⟨msg₁, id₁, n₁, answer₁, carries₁, cast₁, next⟩ |
      ⟨msg, e, answer, bad, thrown⟩
  · obtain ⟨r, stops⟩ := stop_run c
    have ended := goes.trans ((bind_of_ok refused).trans stops)
    exact Or.inl ⟨r, _, ended, stopped_afterStop rfl, Or.inr (Or.inl none)⟩
  · have first : env.session.answer lib ≠ none := by simp [answer₁]
    let d : Context := { c with sessionPath := toString n₁.toNat }
    rcases initVideoroom_cases lib sha host env d with
      ⟨none, refused⟩ | ⟨msg₂, id₂, n₂, answer₂, carries₂, cast₂, done⟩ |
        ⟨msg₂, e, answer₂, bad, thrown⟩
    · obtain ⟨r, stops⟩ := stop_run d
      have ended := goes.trans ((bind_of_ok (next.trans refused)).trans stops)
      exact Or.inl ⟨r, _, ended, stopped_afterStop rfl,
        Or.inr (Or.inr ⟨⟨msg₁, id₁, answer₁, carries₁⟩, none⟩)⟩
    · have ended := goes.trans (bind_of_ok (next.trans done))
      exact Or.inr (Or.inl ⟨msg₁, id₁, n₁, msg₂, id₂, n₂, _, ended, connected,
        ⟨answer₁, carries₁, cast₁⟩, ⟨answer₂, carries₂, cast₂⟩, rfl, rfl, rfl, rfl⟩)
    · have ended := goes.trans (bind_of_throws (next.trans thrown))
      exact Or.inr (Or.inr ⟨e, _, ended, rfl, connected, first,
        Or.inr ⟨by simp [answer₂], unread answer₂ bad⟩⟩)
  · have ended := goes.trans (bind_of_throws thrown)
    exact Or.inr (Or.inr ⟨e, _, ended, rfl, connected, by simp [answer],
      Or.inl (unread answer bad)⟩)

/-- `start` leaves the context initialised or stopped, and not one that runs with a part of its
path missing. -/
def FinishesWell (lib : Nlohmann) (sha : Sha256) (host : String) (env : Startup)
    (joinable : Bool) : Prop :=
  let (r, c) := start lib sha host env (.fresh joinable)
  (Initialised lib env r c ∨ Stopped c) ∧
    (c.stopped = false → c.sessionPath ≠ "" ∧ c.videoroomPath ≠ "")

/-- An exception with the context running is neither of the two. -/
theorem not_finishesWell {e : Exception} {c : Context} {joinable : Bool}
    (ended : start lib sha host env (.fresh joinable) = (.throws e, c))
    (running : c.stopped = false) : ¬ FinishesWell lib sha host env joinable := by
  unfold FinishesWell
  rw [ended]
  rintro ⟨initialised | stopped, -⟩
  · cases initialised.returned
  · rw [stopped.stopped] at running
    cases running

theorem IdOf.unique {text : String} {id id' : Json} (one : IdOf lib text id)
    (other : IdOf lib text id') : id = id' := by
  obtain ⟨json, parsed, -, -, found, -⟩ := one
  obtain ⟨json', parsed', -, -, found', -⟩ := other
  obtain rfl := Option.some.inj (parsed.symm.trans parsed')
  exact Option.some.inj (found.symm.trans found')

/-- The id in the path is the id in the reply. -/
theorem Reply.HasId.read {reply : Reply} {k : Nat} (has : reply.HasId lib k)
    {msg : ResponseMessage} (answer : reply.answer lib = some msg) {id : Json}
    (carries : IdOf lib msg.body id) {n : UInt64} (cast : ReadsAs lib id n) : n.toNat = k := by
  obtain ⟨msg', id', answer', carries', fits, value⟩ := has
  obtain rfl := Option.some.inj (answer.symm.trans answer')
  obtain rfl := carries.unique carries'
  exact (sentFor_of_getUInt64 cast).natural k fits value

theorem Reply.HasId.accepted {reply : Reply} {k : Nat} (has : reply.HasId lib k) :
    reply.Accepted lib ∧ reply.answer lib ≠ none := by
  obtain ⟨msg, id, answer, carries, -⟩ := has
  exact ⟨⟨msg, id, answer, carries⟩, by simp [answer]⟩

theorem toString_ne_empty (k : Nat) : toString k ≠ "" := by
  intro empty
  have digits : k.repr.toList = [] := congrArg String.toList empty
  rw [Nat.toList_repr] at digits
  exact Nat.toDigits_ne_nil digits

/-- **Main result.** `start` leaves the context initialised or stopped exactly if `connect` fails,
or no answer comes to the first request, or the answer to it has a number as its id and no answer
comes to the second, or both answers have an id in `[0, 2^64)`. -/
theorem start_finishes_iff (lib : Nlohmann) (sha : Sha256) (host : String) (env : Startup)
    (joinable : Bool) :
    FinishesWell lib sha host env joinable ↔
      env.connect ≠ .connected ∨ env.session.answer lib = none ∨
        (env.session.Accepted lib ∧ env.videoroom.answer lib = none) ∨
        ((∃ k, env.session.HasId lib k) ∧ ∃ k, env.videoroom.HasId lib k) := by
  rcases @start_cases lib sha host env joinable with
    ⟨r, c, ended, stopped, refused⟩ |
      ⟨msg₁, id₁, n₁, msg₂, id₂, n₂, c, ended, connected, ⟨answer₁, carries₁, cast₁⟩,
        ⟨answer₂, carries₂, cast₂⟩, session, videoroom, polling, running⟩ |
      ⟨e, c, ended, running, connected, answered, unread⟩
  · unfold FinishesWell
    rw [ended]
    constructor
    · intro _
      rcases refused with unconnected | none | refused
      · exact Or.inl unconnected
      · exact Or.inr (Or.inl none)
      · exact Or.inr (Or.inr (Or.inl refused))
    · intro _
      refine ⟨Or.inr stopped, fun running => ?_⟩
      rw [stopped.stopped] at running
      cases running
  · unfold FinishesWell
    rw [ended]
    constructor
    · rintro ⟨initialised | stopped, -⟩
      · obtain ⟨k₁, has₁, -⟩ := initialised.session
        obtain ⟨k₂, has₂, -⟩ := initialised.videoroom
        exact Or.inr (Or.inr (Or.inr ⟨⟨k₁, has₁⟩, k₂, has₂⟩))
      · rw [stopped.stopped] at running
        cases running
    · rintro (unconnected | none | ⟨-, none⟩ | ⟨⟨k₁, has₁⟩, k₂, has₂⟩)
      · exact absurd connected unconnected
      · rw [answer₁] at none
        cases none
      · rw [answer₂] at none
        cases none
      · rw [has₁.read answer₁ carries₁ cast₁] at session
        rw [has₂.read answer₂ carries₂ cast₂] at videoroom
        refine ⟨Or.inl ⟨rfl, ⟨k₁, has₁, session⟩, ⟨k₂, has₂, videoroom⟩, polling, running⟩, ?_⟩
        intro _
        rw [session, videoroom]
        exact ⟨toString_ne_empty k₁, toString_ne_empty k₂⟩
  · constructor
    · intro well
      exact absurd well (not_finishesWell ended running)
    · rintro (unconnected | none | ⟨accepted, none⟩ | ⟨⟨k₁, has₁⟩, k₂, has₂⟩)
      · exact absurd connected unconnected
      · exact absurd none answered
      · rcases unread with unread | ⟨answered₂, -⟩
        · exact absurd accepted unread
        · exact absurd none answered₂
      · rcases unread with unread | ⟨-, unread⟩
        · exact absurd has₁.accepted.1 unread
        · exact absurd has₂.accepted.1 unread

/-- An error of Janus, as it answers a request that it refuses. -/
def janusError : Json :=
  .object [("error", .object [("code", .unsigned 456), ("reason", .string "Missing element")]),
    ("janus", .string "error"), ("transaction", .string "t1")]

/-- A connection, and this error in answer to the first request. -/
def refusedSession : Startup where
  connect := .connected
  sessionDraws := (1, 2)
  videoroomDraws := (3, 4)
  session := ⟨some (dumpLib.dump janusError), fun _ => none⟩
  videoroom := ⟨none, fun _ => none⟩

theorem janusError_parsed : dumpLib.parse? (dumpLib.dump janusError) = some janusError :=
  dumpLib_standard.parse_dump janusError (by decide)

theorem refusedSession_answer : refusedSession.session.answer dumpLib =
    some ⟨"error", "t1", dumpLib.dump janusError⟩ := by
  have read : ResponseMessage.parseJson dumpLib (dumpLib.dump janusError) =
      .ok ⟨"error", "t1", dumpLib.dump janusError⟩ :=
    ResponseMessage.parseJson_eq_ok.2 ⟨janusError, janusError_parsed, rfl, rfl, rfl⟩
  exact Reply.answer_of_body rfl read (by decide)

/-- The exception of the constructor ends `start`, and the context runs on with empty paths. -/
theorem start_on_error (sha : Sha256) (host : String) (joinable : Bool) : ∃ e c,
    start dumpLib sha host refusedSession (.fresh joinable) = (.throws e, c) ∧
      c.stopped = false ∧ c.workGuard = true ∧ c.getPath = "/janus//" := by
  have nothing : ∀ id, ¬ IdOf dumpLib (dumpLib.dump janusError) id := by
    rintro id ⟨json, parsed, -, -, found, -⟩
    obtain rfl := Option.some.inj (janusError_parsed.symm.trans parsed)
    cases found
  let c : Context := { Context.fresh joinable with socketOpen := true }
  have goes := @start_connected dumpLib sha host refusedSession rfl (.fresh joinable)
  rcases initSession_cases dumpLib sha host refusedSession c with
    ⟨none, -⟩ | ⟨msg, id, n, answer, carries, -⟩ | ⟨msg, e, -, -, thrown⟩
  · rw [refusedSession_answer] at none
    cases none
  · rw [refusedSession_answer] at answer
    obtain rfl := Option.some.inj answer
    exact absurd carries (nothing id)
  · exact ⟨e, c, goes.trans (bind_of_throws thrown), rfl, rfl, rfl⟩

/-- So `start` does not finish well on every reply. -/
theorem start_finishes_badly : ¬ ∀ (lib : Nlohmann) (sha : Sha256) (host : String)
    (env : Startup) (joinable : Bool), FinishesWell lib sha host env joinable := by
  let sha : Sha256 := ⟨fun _ => Vector.replicate 32 0⟩
  obtain ⟨e, c, ended, running, -⟩ := start_on_error sha "localhost" true
  simp only [not_forall]
  exact ⟨dumpLib, sha, "localhost", refusedSession, true, not_finishesWell ended running⟩

end Lynks.Janus
