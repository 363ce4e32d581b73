import Lynks.Janus.Participants
import Lynks.Network.TransportRuns

/-!
# What goes over the sockets

How much of it a client decides. The database is only ever asked one statement, and what a
client sends reaches it as the parameter (`statements_fixed`). Janus is only ever sent one of two
messages, and what a client sends reaches it as the number of a room (`messages_fixed`). Back to
the client come the room and the publishers that Janus named, and one word (`room_told`).
-/

namespace Lynks
set_option autoImplicit false

open Lib Janus Handler Transport

namespace Transport

variable {lib : Nlohmann} {sha : Sha256} {host : String} {port : UInt16} {maxSessions : UInt16}
  {s : Pool TransportState HttpRequest TransportOp TransportOp.Ans Exception HttpResponse}
  {es : List TransportStep}

/-! ## Statements -/

/-- An operation that waits for no socket is in the past as it is. -/
theorem Calls.direct {past' : List TransportEvent} {past : List Event}
    (calls : Calls (impl host port) past' past) :
    ∀ e ∈ past, e.1.isDirect = true → ofDirect e.1 e.2 ∈ past' := by
  induction calls with
  | none =>
    intro e mem
    cases mem
  | @call before seg past o a earlier left ih =>
    intro e mem here
    rcases List.mem_append.1 mem with old | new
    · exact List.mem_append_left _ (ih e old here)
    · obtain rfl := List.mem_singleton.1 new
      obtain ⟨a', same, returned⟩ := Prog.after_ended (call_wp o) left
      obtain rfl := Outcome.ok.inj same
      cases o with
      | sendQuery sql param => cases here
      | sendTemporary request => cases here
      | _ =>
        rw [show seg = _ from returned]
        exact List.mem_append_right _ (List.mem_singleton_self _)

/-- Every session belongs to a name that passes `validate_user`. -/
theorem owners_valid (run : (coroutines lib sha host port maxSessions).machine.Run es s) :
    ∀ t ∈ s.shared.store.sessions, User.usernameMatches t.ownerIdentifier = true := by
  obtain ⟨fs, t, h, served, -, matched⟩ := behind_of_run run
  intro session mem
  rw [← show t.shared = s.shared.store from matched.shared] at mem
  obtain ⟨r, recorded, event⟩ := Service.opened_of_run served session mem
  obtain ⟨_, _, _, _, _, _, user, -, -, -, -, resolves, -, owner, -⟩ :=
    Service.login_of_issued served recorded event
  obtain ⟨_, -, -, matched, -⟩ := resolves
  rw [← owner]
  exact matched

/-- Whoever the store has named as an owner has such a name. -/
theorem owned_valid (run : (coroutines lib sha host port maxSessions).machine.Run es s) {i : Nat}
    {before after : List TransportEntry}
    (split : (coroutines lib sha host port maxSessions).history es = before ++ after)
    {token username : String}
    (told : ofDirect (.getUsernameByToken token) (some username) ∈ Coroutines.pastOf i before) :
    User.usernameMatches username = true := by
  obtain ⟨x, mem, -, event⟩ := mem_pastBy.1 told
  obtain ⟨b₁, b₂, rfl⟩ := List.append_of_mem mem
  obtain ⟨_, u, _, _, t, run', -, shared, -, -, -, reacted⟩ :=
    Coroutines.entry_at run (show _ = b₁ ++ x :: (b₂ ++ after) by simp [split])
  rw [event] at reacted
  obtain ⟨store, admitted, -⟩ :=
    Option.map_eq_some_iff.1 (TransportState.react_cases reacted).1
  obtain ⟨session, stored, -, owner, -⟩ := Service.storeAfter_owned admitted
  rw [← shared] at stored
  rw [← owner]
  exact owners_valid run' session stored

/-- Whose name a query may be about. -/
def NamedIn (lib : Nlohmann) (sha : Sha256) (request : HttpRequest) (past : List TransportEvent)
    (name : String) : Prop :=
  (request.target = "/login" ∧ name = (User.ofJson lib sha request.body).username) ∨
    request.AsksJanus ∧ User.usernameMatches name = true ∧ ∃ token,
      request.authorization = some token ∧
        ofDirect (.getUsernameByToken token) (some name) ∈ past

/-- **One statement.** Whatever the clients send, the only statement prepared is the one of
`find_user_by_username`, by a handler that has just fetched a connection; it is executed once it
has been prepared, for the name in the body of a login or else for the owner of the session, a
name that passes `validate_user`. -/
theorem statements_fixed (run : (coroutines lib sha host port maxSessions).machine.Run es s)
    {before after : List TransportEntry} {x : TransportEntry}
    (split : (coroutines lib sha host port maxSessions).history es = before ++ x :: after) :
    (∀ sql, x.event.1 = .prepareStatement sql → sql = selectByUsername ∧
      (Coroutines.pastOf x.task before).getLast? = some (fetched true)) ∧
    ∀ param, x.event.1 = .execute param →
      (Coroutines.pastOf x.task before).getLast? = some (prepared selectByUsername true) ∧
      NamedIn lib sha x.request (Coroutines.pastOf x.task before) param := by
  have within := Coroutines.allowed_of_run handler_wp run split
  obtain ⟨earlier, seg, past, o, whole, calls, script, step⟩ := within
  constructor
  · intro sql event
    rw [event] at step
    cases step with
    | prepare sql param =>
      refine ⟨?_, by rw [whole, List.getLast?_concat]⟩
      cases script <;> rfl
  · intro param event
    rw [event] at step
    cases step with
    | execute sql param =>
      cases script with
      | lookUp login => exact ⟨by simp [whole], Or.inl ⟨login, rfl⟩⟩
      | resolve token username endpoint header =>
        have told : ofDirect (.getUsernameByToken token) (some param) ∈
            Coroutines.pastOf x.task before := by
          rw [whole]
          apply List.mem_append_left
          exact Calls.direct calls (owned token (some param)) (by simp) rfl
        exact ⟨by simp [whole], Or.inr ⟨endpoint, owned_valid run split told, token, header, told⟩⟩

open Service (ackLib constantSha aliceRow)

/-- A login, up to the execution of its statement. -/
def loginQuery : List TransportStep :=
  [.start ⟨"/login", 11, none, "login"⟩, .answer 0 (0, 0) (fetched true),
    .answer 0 (0, 0) (prepared selectByUsername true),
    .answer 0 (0, 0) (executed "alice" (some [aliceRow]))]

theorem statements_fixed_loginQuery :
    ∃ s, (coroutines ackLib constantSha "janus" 8088 10).machine.Run loginQuery s ∧
      ∃ before x,
        (coroutines ackLib constantSha "janus" 8088 10).history loginQuery = before ++ [x] ∧
        NamedIn ackLib constantSha x.request (Coroutines.pastOf x.task before) "alice" := by
  obtain ⟨s, run⟩ : ∃ s,
      (coroutines ackLib constantSha "janus" 8088 10).machine.Run loginQuery s := ⟨_, rfl⟩
  have entries : (coroutines ackLib constantSha "janus" 8088 10).history loginQuery ≠ [] :=
    fun h => by cases h
  have split := (List.dropLast_append_getLast entries).symm
  exact ⟨s, run, _, _, split, ((statements_fixed run split).2 "alice" rfl).2⟩

/-! ## Messages -/

/-- What is common to the messages. -/
def videoRoomMessage (fields : List (String × Json)) : Json :=
  .object [("body", .object fields), ("janus", .string "message"),
    ("transaction", .string "test123")]

/-- What asks for a room. -/
def createFields : List (String × Json) :=
  [("is_private", .boolean false), ("request", .string "create"), ("room", .unsigned 123456)]

/-- What asks who is in a room. -/
def listFields (room : UInt64) : List (String × Json) :=
  [("request", .string "listparticipants"), ("room", .unsigned room)]

theorem videoRoomMessage_printable {fields : List (String × Json)}
    (fine : JsonDump.printable (.object fields) = true) :
    JsonDump.printable (videoRoomMessage fields) = true := by
  have strings : isUtf8 "body" = true ∧ isUtf8 "janus" = true ∧ isUtf8 "transaction" = true ∧
      isUtf8 "message" = true ∧ isUtf8 "test123" = true := ⟨rfl, rfl, rfl, rfl, rfl⟩
  apply JsonDump.printable_object
  · change ["body", "janus", "transaction"].Pairwise (· < ·)
    decide
  · simp [JsonDump.printable.eq_6, JsonDump.printableFields, strings, fine]

theorem createFields_printable : JsonDump.printable (.object createFields) = true := by
  have strings : isUtf8 "is_private" = true ∧ isUtf8 "request" = true ∧ isUtf8 "room" = true ∧
      isUtf8 "create" = true := ⟨rfl, rfl, rfl, rfl⟩
  apply JsonDump.printable_object
  · change ["is_private", "request", "room"].Pairwise (· < ·)
    decide
  · simp [createFields, JsonDump.printable, JsonDump.printableFields, strings]

theorem listFields_printable (room : UInt64) :
    JsonDump.printable (.object (listFields room)) = true := by
  have strings : isUtf8 "request" = true ∧ isUtf8 "room" = true ∧
      isUtf8 "listparticipants" = true := ⟨rfl, rfl, rfl⟩
  apply JsonDump.printable_object
  · change ["request", "room"].Pairwise (· < ·)
    decide
  · simp [listFields, JsonDump.printable, JsonDump.printableFields, strings]

/-- What a request has Janus asked. The room is the number in the body, cast: the number itself
only where it is a room at all. -/
def AskedBy (lib : Nlohmann) (request : HttpRequest) (json : Json) : Prop :=
  (request.target = "/create" ∧ json = videoRoomMessage createFields) ∨
    request.target = "/list_participants" ∧ ∃ named room,
      requestedRoom? lib request.body = some named ∧ SentFor named room ∧
        json = videoRoomMessage (listFields room)

theorem listParticipantsRequest_fixed {body : String} {r : ListParticipantsRequest}
    (made : ListParticipantsRequest.new lib body = .ok r) :
    r = ⟨"message", "test123", "listparticipants", r.roomId⟩ := by
  unfold ListParticipantsRequest.new at made
  simp only [Outcome.bind_eq_ok] at made
  obtain ⟨json, -, room, -, roomId, -, same⟩ := made
  obtain rfl := Outcome.ok.inj same
  rfl

theorem outgoing_asked (standard : lib.Standard) {request : HttpRequest}
    (endpoint : request.AsksJanus) {path : String} {message : JanusRequest}
    (named : outgoing lib host request path = some message) :
    message.method = .post ∧ message.host = host ∧ message.target = path ∧
      ∃ json, lib.parse? message.body = some json ∧ AskedBy lib request json := by
  unfold outgoing at named
  split at named
  · rename_i create
    obtain rfl := Option.some.inj named
    refine ⟨rfl, rfl, rfl, videoRoomMessage createFields, ?_, Or.inl ⟨create, rfl⟩⟩
    exact standard.parse_dump _ (videoRoomMessage_printable createFields_printable)
  · rename_i create
    have list := endpoint.resolve_left create
    obtain ⟨r, made, rfl⟩ := Option.map_eq_some_iff.1 named
    have made := Outcome.value?_eq_some.1 made
    rcases @ListParticipantsRequest.new_cases lib request.body with
      ⟨room, r', found, -, made', read⟩ | ⟨-, e, thrown⟩
    · obtain rfl := Outcome.ok.inj (made'.symm.trans made)
      refine ⟨rfl, rfl, rfl, videoRoomMessage (listFields r'.roomId), ?_,
        Or.inr ⟨list, room, r'.roomId, found, sentFor_of_getUInt64 read, rfl⟩⟩
      rw [listParticipantsRequest_fixed made]
      exact standard.parse_dump _ (videoRoomMessage_printable (listFields_printable r'.roomId))
    · rw [thrown] at made
      cases made

/-- **Two messages.** Whatever the clients send, a message to Janus is a POST to the path of the
video room, and its body, as Janus parses it, asks either for the one room there is or for the
participants of the room that the number in the client's body is cast to. -/
theorem messages_fixed (standard : lib.Standard)
    (run : (coroutines lib sha host port maxSessions).machine.Run es s)
    {before after : List TransportEntry} {x : TransportEntry} {message : JanusRequest}
    (split : (coroutines lib sha host port maxSessions).history es = before ++ x :: after)
    (event : x.event.1 = .write message) :
    message.method = .post ∧ message.host = host ∧
      ofDirect .getPath message.target ∈ Coroutines.pastOf x.task before ∧
      ∃ json, lib.parse? message.body = some json ∧ AskedBy lib x.request json := by
  have within := Coroutines.allowed_of_run handler_wp run split
  obtain ⟨earlier, seg, past, o, whole, calls, script, step⟩ := within
  rw [event] at step
  cases step with
  | write =>
    cases script with
    | send token username rows user path _ endpoint header resolves named =>
      obtain ⟨method, hosted, target, asked⟩ := outgoing_asked standard endpoint named
      refine ⟨method, hosted, ?_, asked⟩
      rw [whole, target]
      apply List.mem_append_left
      exact Calls.direct calls (located path) (by simp) rfl

/-- The message that asks who is in room 7. -/
def listMessage : JanusRequest :=
  RequestMapper.postRequest .listMeetingParticipants
    (dumpLib.dump (videoRoomMessage (listFields 7))) "janus" "/janus/1/2"

/-- A login, and a listing up to the write to Janus. -/
def listingRun : List TransportStep :=
  [.start ⟨"/login", 11, none, "\x7b\"password\":\"secret\",\"username\":\"alice\"\x7d"⟩] ++
  alicesQuery.map (.answer 0 (0, 0)) ++
  [.answer 0 (1000, 0) (ofDirect (.newSession "alice") (some "a1")),
    .start ⟨"/list_participants", 11, some "a1", "\x7b\"room_id\":7\x7d"⟩,
    .answer 1 (2000, 2001) (ofDirect (.validateSession "a1") true),
    .answer 1 (2002, 0) (ofDirect (.getUsernameByToken "a1") (some "alice"))] ++
  alicesQuery.map (.answer 1 (0, 0)) ++
  [.answer 1 (0, 0) (ofDirect .getPath "/janus/1/2"),
    .answer 1 (0, 0) (resolved "janus" "8088" true), .answer 1 (0, 0) (connected true),
    .answer 1 (0, 0) (written listMessage true)]

theorem messages_fixed_listingRun :
    ∃ s, (coroutines dumpLib constantSha "janus" 8088 10).machine.Run listingRun s ∧
      ∃ json request, dumpLib.parse? listMessage.body = some json ∧
        AskedBy dumpLib request json := by
  obtain ⟨s, run⟩ : ∃ s,
      (coroutines dumpLib constantSha "janus" 8088 10).machine.Run listingRun s := ⟨_, rfl⟩
  have entries : (coroutines dumpLib constantSha "janus" 8088 10).history listingRun ≠ [] :=
    fun h => by cases h
  have split := (List.dropLast_append_getLast entries).symm
  have event : (List.getLast _ entries).event.1 = .write listMessage := rfl
  obtain ⟨-, -, -, json, parsed, asked⟩ := messages_fixed dumpLib_standard run split event
  exact ⟨s, run, json, _, parsed, asked⟩

end Transport

/-! ## Replies -/

theorem readPluginData_of_room {json data room : Json} (plugin : readPluginData json = .ok data)
    (found : data.field? "room" = some room) : pluginData? json = some data := by
  obtain ⟨plugindata, first, second⟩ := Outcome.bind_eq_ok.1 plugin
  have notNull : data ≠ .null := by
    rintro rfl
    cases found
  have inner := (field_of_subscript second).resolve_right notNull
  rcases field_of_subscript first with outer | rfl
  · exact Option.bind_eq_some_iff.2 ⟨plugindata, outer, inner⟩
  · cases inner

/-- Which texts are read as the answer to a creation. -/
theorem createVideoResponse_new {lib : Nlohmann} {text : String} {r : UserCreateVideoResponse}
    (made : UserCreateVideoResponse.new lib text = .ok r) :
    ∃ json data room, lib.parse? text = some json ∧ json.stringField? "janus" = some r.janus ∧
      pluginData? json = some data ∧ data.field? "room" = some room ∧ ReadsAs lib room r.roomId := by
  unfold UserCreateVideoResponse.new at made
  simp only [Outcome.bind_eq_ok, parse_eq_ok, Json.readString_eq_ok, Outcome.pure_eq,
    Outcome.ok.injEq] at made
  obtain ⟨json, parsed, janus, hasJanus, _, -, roomId, read, rfl⟩ := made
  obtain ⟨data, plugin, -⟩ := Outcome.bind_eq_ok.1 read
  obtain ⟨room, found, cast⟩ := (readRoom_eq_ok plugin).1 read
  exact ⟨json, data, room, parsed, hasJanus, readPluginData_of_room plugin found, found, cast⟩

theorem createReply_printable {action : String} (room : UInt64) (utf8 : isUtf8 action = true) :
    JsonDump.printable (.object [("action", .string action), ("room_id", .unsigned room)]) =
      true := by
  have keys : isUtf8 "action" = true ∧ isUtf8 "room_id" = true := ⟨rfl, rfl⟩
  apply JsonDump.printable_object
  · change ["action", "room_id"].Pairwise (· < ·)
    decide
  · simp [JsonDump.printable, JsonDump.printableFields, keys, utf8]

/-- What the client is told of an answer of Janus, whose `plugindata.data` is `data`. The room and
the ids are cast: they are those of Janus where Janus gives integers in `[0, 2^64)`. -/
def Tells (request : HttpRequest) (action : String) (data reply : Json) : Prop :=
  ∃ room k, data.field? "room" = some room ∧ SentFor room k ∧
    (request.target = "/create" ∧
        reply = .object [("action", .string action), ("room_id", .unsigned k)] ∨
      request.target = "/list_participants" ∧ ∃ ids,
        List.Forall₂ SentFor (publisherIds data) ids ∧
        reply = .object [("action", .string action), ("publishers", .array (ids.map .unsigned)),
          ("room_id", .unsigned k)])

namespace Service

variable {lib : Nlohmann} {sha : Sha256} {host : String} {maxSessions : UInt16} {s : Service}
  {es : List ServiceEvent}

/-- The text of a verdict, parsed. -/
theorem tells_of_verdict (standard : lib.Standard) {request : HttpRequest} {past : List Event}
    {text : String} (endpoint : request.AsksJanus)
    (judged : verdict lib request past = some text) :
    ∃ message json action data reply, told lib past = some message ∧
      lib.parse? message.body = some json ∧ json.stringField? "janus" = some action ∧
      pluginData? json = some data ∧ lib.parse? text = some reply ∧
      Tells request action data reply := by
  rcases endpoint with create | list
  · simp only [verdict, create] at judged
    obtain ⟨message, got, printed⟩ := Option.bind_eq_some_iff.1 judged
    obtain ⟨r, made, rfl⟩ := Option.map_eq_some_iff.1 printed
    obtain ⟨json, data, room, parsed, janus, plugin, found, read⟩ :=
      createVideoResponse_new (Outcome.value?_eq_some.1 made)
    have utf8 := standard.utf8 _ _ _ _ parsed janus
    exact ⟨message, json, r.janus, data, _, got, parsed, janus, plugin,
      standard.parse_dump _ (createReply_printable r.roomId utf8), room, r.roomId, found,
      sentFor_of_getUInt64 read, Or.inl ⟨create, rfl⟩⟩
  · simp only [verdict, list] at judged
    obtain ⟨message, got, printed⟩ := Option.bind_eq_some_iff.1 judged
    obtain ⟨r, made, rfl⟩ := Option.map_eq_some_iff.1 printed
    obtain ⟨data, listing, fed⟩ :=
      ListParticipantsResponse.new_eq_ok.1 (Outcome.value?_eq_some.1 made)
    obtain ⟨json, parsed, janus, -, plugin⟩ := listing.parsed
    obtain ⟨room, found, read⟩ := listing.room
    have related := ((readFeedIds_eq_ok _).1 fed).2
    rw [← publisherIds_eq] at related
    have utf8 := standard.utf8 _ _ _ _ parsed janus
    exact ⟨message, json, r.janus, data, _, got, parsed, janus, plugin,
      standard.parse_dump _ (listingReply_printable utf8), room, r.roomId, found,
      sentFor_of_getUInt64 read, Or.inr ⟨list, r.feedIds,
        related.imp fun _ _ => sentFor_of_getUInt64, rfl⟩⟩

/-- **What a client is told of the video room.** In every run the body of a 200, parsed, is what
the handler was told by Janus and no more: the word under `janus`, the number of the room, and in
a listing the numbers of the publishers, in order. -/
theorem room_told (standard : lib.Standard) (run : (service lib sha host maxSessions).Run es s)
    {i : Nat} {request : HttpRequest} {response : HttpResponse}
    (found : s.inFlight[i]? = some ⟨request, .done (.ok response)⟩) (endpoint : request.AsksJanus)
    (accepted : response.result = .ok) :
    ∃ message json action data reply,
      told lib (pastOf i (history lib sha host maxSessions es)) = some message ∧
      lib.parse? message.body = some json ∧ json.stringField? "janus" = some action ∧
      pluginData? json = some data ∧ lib.parse? response.body = some reply ∧
      Tells request action data reply := by
  have concluded : Concludes lib sha request (pastOf i (history lib sha host maxSessions es))
      (.ok response) := concludes_of_run run found
  rcases concluded with ⟨-, rfl⟩ | ⟨-, -, rfl⟩
  · cases judged : verdict lib request (pastOf i (history lib sha host maxSessions es)) with
    | none =>
      rw [judged] at accepted
      cases accepted
    | some text => exact tells_of_verdict standard endpoint judged
  · cases accepted

/-- What Janus answers to the creation of a room. -/
def createdText : String :=
  "\x7b\"janus\":\"success\",\"plugindata\":\x7b\"data\":\x7b\"room\":5\x7d\x7d,\"transaction\":\"\"\x7d"

/-- A login, and a meeting created to the end. -/
def createdRun : List ServiceEvent :=
  [.arrive ⟨"/login", 11, none, "\x7b\"password\":\"secret\",\"username\":\"alice\"\x7d"⟩,
    .perform 0 (queried selectByUsername "alice" (some [aliceRow])) 0 0,
    .perform 0 (issued "alice" (some "a1")) 1000 0,
    .arrive ⟨"/create", 11, some "a1", ""⟩,
    .perform 1 (validated "a1" true) 2000 2001,
    .perform 1 (owned "a1" (some "alice")) 2002 0,
    .perform 1 (queried selectByUsername "alice" (some [aliceRow])) 0 0,
    .perform 1 (located "/janus/1/2") 0 0,
    .perform 1 (sent (RequestMapper.postRequest .createRoom (CreateRoomRequest.new.toJson dumpLib)
      "janus" "/janus/1/2") (some createdText)) 0 0]

theorem room_told_createdRun :
    ∃ s, (service dumpLib constantSha "janus" 10).Run createdRun s ∧ ∃ action data reply,
      dumpLib.parse? (dumpLib.dump (.object [("action", .string "success"),
        ("room_id", .unsigned 5)])) = some reply ∧
      Tells ⟨"/create", 11, some "a1", ""⟩ action data reply := by
  obtain ⟨s, run, found⟩ : ∃ s, (service dumpLib constantSha "janus" 10).Run createdRun s ∧
      s.inFlight[1]? = some ⟨⟨"/create", 11, some "a1", ""⟩,
        .done (.ok (Router.succesfulRequest ⟨"/create", 11, some "a1", ""⟩
          (dumpLib.dump (.object [("action", .string "success"),
            ("room_id", .unsigned 5)]))))⟩ := ⟨_, rfl, rfl⟩
  obtain ⟨message, json, action, data, reply, -, -, -, -, parsed, tells⟩ :=
    room_told dumpLib_standard run found (Or.inl rfl) rfl
  exact ⟨s, run, action, data, reply, parsed, tells⟩

end Service

end Lynks
