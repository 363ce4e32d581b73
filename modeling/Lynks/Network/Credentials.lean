import Lynks.Network.Interleaving

/-!
# Whose password stands behind a session

A session is opened by a login that looked a user up by the name in its body and found the
digest of the body's password in the row. So much is local to the login. In every run the store
keeps it: whatever the other handlers and the cleanup thread do, each session stored has such a
login in its past (`session_logged_in`), and whoever contacts Janus shows the token of one, for
the very user whose row let the request through (`contact_logged_in`). Nothing is asked of the
tokens: two sessions may share one.
-/

namespace Lynks
set_option autoImplicit false

open Lib Janus Handler

namespace Service

section

variable (lib : Nlohmann) (sha : Sha256)

/-- One handler of a login was given a row whose password is the digest of the one in the body,
and then got this token for the user of the row. -/
def LoggedIn (h : List Record) (token owner : String) : Prop :=
  ∃ before q between l after rows user, h = before ++ q :: (between ++ l :: after) ∧
    q.handler = l.handler ∧ l.request.target = "/login" ∧
    q.event = queried selectByUsername (User.ofJson lib sha l.request.body).username (some rows) ∧
    Resolves rows user ∧ (User.ofJson lib sha l.request.body).password = user.password ∧
    user.username = owner ∧ l.event = issued owner (some token)

end

variable {lib : Nlohmann} {sha : Sha256} {host : String} {maxSessions : UInt16} {s : Service}
  {h : List Record}

theorem LoggedIn.append {token owner : String} (login : LoggedIn lib sha h token owner)
    (more : List Record) : LoggedIn lib sha (h ++ more) token owner := by
  obtain ⟨before, q, between, l, after, rows, user, rfl, rest⟩ := login
  exact ⟨before, q, between, l, after ++ more, rows, user, by simp, rest⟩

/-- The script of a login, found in the history. -/
theorem LoggedIn.of_script {x : Record} {owner token : String}
    (script : Script lib sha host x.request (pastOf x.handler h) (.newSession owner))
    (event : x.event = issued owner (some token)) :
    LoggedIn lib sha (h ++ [x]) token owner := by
  generalize past : pastOf x.handler h = answered at script
  cases script with
  | logIn rows user login resolves password =>
    obtain ⟨before, q, between, rfl, own, queried, -⟩ := pastBy_eq_cons past
    exact ⟨before, q, between, x, [], rows, user, by simp, own, login, queried, resolves,
      password, rfl, event⟩

/-- Each session in the store was opened by an answer to some handler. -/
theorem opened_of_run {es : List ServiceEvent}
    (run : (service lib sha host maxSessions).Run es s) :
    ∀ t ∈ s.store.sessions, ∃ r ∈ history lib sha host maxSessions es,
      r.event = issued t.ownerIdentifier (some t.token) := by
  refine traced (I := fun h store => ∀ t ∈ store.sessions, ∃ r ∈ h,
    r.event = issued t.ownerIdentifier (some t.token)) handleRequest_script run ?_ ?_ ?_
  · intro t mem
    cases mem
  · intro h x refreshed store inv script admitted u mem
    rcases storeAfter_sessions admitted u mem with ⟨v, old, token, owner⟩ | opened
    · obtain ⟨r, recorded, event⟩ := inv v old
      rw [← token, ← owner]
      exact ⟨r, List.mem_append_left _ recorded, event⟩
    · exact ⟨x, by simp, opened⟩
  · intro h store nows store' inv passed u mem
    rcases SessionHandler.step_sessions passed u mem with
      old | ⟨_, _, _, other, -⟩ | ⟨_, _, _, other, -⟩
    · exact inv u old
    · cases other
    · cases other

/-- Only a login is issued a token, and only after it has shown the password. -/
theorem login_of_issued {es : List ServiceEvent}
    (run : (service lib sha host maxSessions).Run es s) {x : Record} {token owner : String}
    (recorded : x ∈ history lib sha host maxSessions es)
    (event : x.event = issued owner (some token)) :
    LoggedIn lib sha (history lib sha host maxSessions es) token owner := by
  obtain ⟨before, after, split⟩ := List.append_of_mem recorded
  have script := script_of_run run split
  rw [event] at script
  rw [split]
  simpa using (LoggedIn.of_script script event).append after

/-- **Every session has a login behind it** that showed the password of its owner. -/
theorem session_logged_in {es : List ServiceEvent}
    (run : (service lib sha host maxSessions).Run es s) :
    ∀ t ∈ s.store.sessions,
      LoggedIn lib sha (history lib sha host maxSessions es) t.token t.ownerIdentifier := by
  intro t mem
  obtain ⟨r, recorded, event⟩ := opened_of_run run t mem
  exact login_of_issued run recorded event

theorem session_logged_in_meetingRun :
    ∃ s, (service loginLib constantSha "janus" 10).Run meetingRun s ∧
      s.store.sessions.length = 1 ∧ ∀ t ∈ s.store.sessions, LoggedIn loginLib constantSha
        (history loginLib constantSha "janus" 10 meetingRun) t.token t.ownerIdentifier :=
  ⟨_, rfl, rfl, @session_logged_in loginLib constantSha "janus" 10 _ meetingRun rfl⟩

/-- The login behind the gate: the handler asked the store who owned the token. -/
theorem login_of_gate {es : List ServiceEvent}
    (run : (service lib sha host maxSessions).Run es s) {before after : List Record} {i : Nat}
    {token username : String} {rows : List Row} {more : List Event}
    (split : history lib sha host maxSessions es = before ++ after)
    (past : pastOf i before = gateEvents token username rows ++ more) :
    LoggedIn lib sha before token username := by
  -- the second answer is the store's, which held the session then
  obtain ⟨b₁, v, rest, rfl, -, -, past⟩ := pastBy_eq_cons past
  obtain ⟨b₂, g, b₃, rfl, -, told, -⟩ := pastBy_eq_cons past
  have earlier : history lib sha host maxSessions es =
      (b₁ ++ v :: b₂) ++ g :: (b₃ ++ after) := by simp [split]
  obtain ⟨fs, u, _, _, run', same, store, admitted⟩ := record_at run earlier
  rw [told] at admitted
  obtain ⟨session, mem, token', owner, -⟩ := storeAfter_owned admitted
  obtain ⟨r, recorded, event⟩ := opened_of_run run' session (store ▸ mem)
  rw [token', owner] at event
  have login := login_of_issued run' recorded event
  rw [← same] at login
  simpa using login.append (g :: b₃)

/-- **Janus is contacted only in the name of someone who showed a password.** The token of the
request was given to a login with the password of the user whose name the handler looked up,
and the row it was shown is a valid user's. -/
theorem contact_logged_in {es : List ServiceEvent}
    (run : (service lib sha host maxSessions).Run es s) {before after : List Record} {x : Record}
    (split : history lib sha host maxSessions es = before ++ x :: after)
    (contacts : x.ContactsJanus) :
    ∃ token username rows user path, x.request.authorization = some token ∧
      pastOf x.handler before = gateEvents token username rows ++ [located path] ∧
      Resolves rows user ∧ LoggedIn lib sha before token username := by
  have script := script_of_run run split
  obtain ⟨message, body, event⟩ := contacts
  rw [event] at script
  generalize answered : pastOf x.handler before = past at script
  cases script with
  | send token username rows user path message endpoint header resolves named =>
    exact ⟨token, username, rows, user, path, header, rfl, resolves,
      login_of_gate run split answered⟩

theorem contact_logged_in_meetingRun :
    ∃ s, (service loginLib constantSha "janus" 10).Run meetingRun s ∧
      ∃ before x, history loginLib constantSha "janus" 10 meetingRun = before ++ [x] ∧
        ∃ token username, x.request.authorization = some token ∧
          LoggedIn loginLib constantSha before token username := by
  obtain ⟨s, run⟩ : ∃ s, (service loginLib constantSha "janus" 10).Run meetingRun s := ⟨_, rfl⟩
  have some_records : history loginLib constantSha "janus" 10 meetingRun ≠ [] := fun h => by cases h
  have split := (List.dropLast_append_getLast some_records).symm
  obtain ⟨token, username, -, -, -, header, -, -, login⟩ :=
    @contact_logged_in _ _ _ _ _ _ run _ [] _ split ⟨_, _, rfl⟩
  exact ⟨s, run, _, _, split, token, username, header, login⟩

/-! ## What a 200 takes -/

/-- A handler is given a token by the store. -/
theorem given_cases {past : List Event} {token : String} (got : given past = some token) :
    ∃ before owner, past = before ++ [issued owner (some token)] := by
  unfold given at got
  cases last : past.getLast? with
  | none =>
    rw [last] at got
    cases got
  | some e =>
    obtain ⟨before, rfl⟩ := List.getLast?_eq_some_iff.1 last
    obtain ⟨o, answer⟩ := e
    rw [last] at got
    cases o with
    | newSession owner =>
      obtain rfl : answer = some token := got
      exact ⟨before, owner, rfl⟩
    | _ => cases got

/-- A handler is told Janus's answer on the connection it sent to, or by the event it waited
for. -/
theorem told_cases {past : List Event} {message : ResponseMessage}
    (got : told lib past = some message) :
    (∃ before outgoing body, past = before ++ [sent outgoing (some body)] ∧
      ResponseMessage.parseJson lib body = .ok message ∧ message.eventType ≠ "ack") ∨
    ∃ before tx, past = before ++ [waited tx (some message)] := by
  unfold told at got
  cases last : past.getLast? with
  | none =>
    rw [last] at got
    cases got
  | some e =>
    obtain ⟨before, rfl⟩ := List.getLast?_eq_some_iff.1 last
    obtain ⟨o, answer⟩ := e
    rw [last] at got
    cases o with
    | waitForTransaction tx =>
      obtain rfl : answer = some message := got
      exact Or.inr ⟨before, tx, rfl⟩
    | sendTemporary outgoing =>
      obtain ⟨parsed, direct⟩ := Option.filter_eq_some_iff.1 got
      obtain ⟨body, rfl, ok⟩ := Option.bind_eq_some_iff.1 parsed
      exact Or.inl ⟨before, outgoing, body, rfl, Outcome.value?_eq_some.1 ok, by simpa using direct⟩
    | _ => cases got

/-- Who has sent something to Janus carries the token of a login. -/
theorem logged_in_of_sent {es : List ServiceEvent}
    (run : (service lib sha host maxSessions).Run es s) {i : Nat} {request : HttpRequest}
    {p : Handler HttpResponse} (found : s.inFlight[i]? = some ⟨request, p⟩)
    {outgoing : JanusRequest} {body : Option String}
    (mem : sent outgoing body ∈ pastOf i (history lib sha host maxSessions es)) :
    ∃ token owner, request.authorization = some token ∧
      LoggedIn lib sha (history lib sha host maxSessions es) token owner := by
  obtain ⟨x, recorded, rfl, event⟩ := mem_pastBy.1 mem
  obtain ⟨before, after, split⟩ := List.append_of_mem recorded
  have script := script_of_run run split
  rw [event, request_of_record run recorded found] at script
  generalize answered : pastOf x.handler before = past at script
  cases script with
  | send token owner rows user path message endpoint header =>
    refine ⟨token, owner, header, ?_⟩
    rw [split]
    exact (login_of_gate run split answered).append (x :: after)

/-- An answer of Janus comes after a message to it. -/
theorem contacted_of_told {es : List ServiceEvent}
    (run : (service lib sha host maxSessions).Run es s) {i : Nat} {message : ResponseMessage}
    (got : told lib (pastOf i (history lib sha host maxSessions es)) = some message) :
    Contacted (pastOf i (history lib sha host maxSessions es)) := by
  rcases told_cases got with ⟨past, outgoing, body, last, -⟩ | ⟨past, tx, last⟩
  · rw [last]
    exact ⟨outgoing, some body, by simp⟩
  · obtain ⟨before, x, after, split, own, event, answered⟩ := last_record last
    have script := script_of_run run split
    rw [event, own, answered] at script
    rw [last]
    cases script with
    | wait token username rows user path outgoing body => exact ⟨outgoing, some body, by simp⟩

/-- A request on the video room that is answered with 200 was told something by Janus. -/
theorem told_of_ok {es : List ServiceEvent}
    (run : (service lib sha host maxSessions).Run es s) {i : Nat} {request : HttpRequest}
    {response : HttpResponse} (found : s.inFlight[i]? = some ⟨request, .done (.ok response)⟩)
    (endpoint : request.AsksJanus) (accepted : response.result = .ok) :
    ∃ message, told lib (pastOf i (history lib sha host maxSessions es)) = some message := by
  have concluded : Concludes lib sha request (pastOf i (history lib sha host maxSessions es))
      (.ok response) := concludes_of_run run found
  by_contra nothing
  have silent := Option.eq_none_iff_forall_ne_some.2 fun message got => nothing ⟨message, got⟩
  rcases concluded with ⟨-, rfl⟩ | ⟨-, -, rfl⟩
  · rw [verdict_eq_none endpoint silent] at accepted
    cases accepted
  · cases accepted

/-- **A 200 takes a password.** A login that is answered with 200 got the token in the reply for
the user whose password it showed; any other request answered with 200 carries a token that such
a login got, and contacted Janus. -/
theorem ok_logged_in {es : List ServiceEvent}
    (run : (service lib sha host maxSessions).Run es s) {i : Nat} {request : HttpRequest}
    {response : HttpResponse} (found : s.inFlight[i]? = some ⟨request, .done (.ok response)⟩)
    (accepted : response.result = .ok) :
    (request.target = "/login" ∧ ∃ token owner, response.body = loginReply token ∧
      issued owner (some token) ∈ pastOf i (history lib sha host maxSessions es) ∧
      LoggedIn lib sha (history lib sha host maxSessions es) token owner) ∨
    (request.AsksJanus ∧ Contacted (pastOf i (history lib sha host maxSessions es)) ∧
      ∃ token owner, request.authorization = some token ∧
        LoggedIn lib sha (history lib sha host maxSessions es) token owner) := by
  have concluded : Concludes lib sha request (pastOf i (history lib sha host maxSessions es))
      (.ok response) := concludes_of_run run found
  rcases concluded with ⟨known, rfl⟩ | ⟨-, -, rfl⟩
  · cases judged : verdict lib request (pastOf i (history lib sha host maxSessions es)) with
    | none =>
      rw [judged] at accepted
      cases accepted
    | some text =>
      rcases known with login | endpoint
      · simp only [verdict, login, if_true] at judged
        obtain ⟨token, got, rfl⟩ := Option.map_eq_some_iff.1 judged
        obtain ⟨past, owner, last⟩ := given_cases got
        have answered : issued owner (some token) ∈
            pastOf i (history lib sha host maxSessions es) := by
          rw [last]
          simp
        obtain ⟨x, recorded, -, event⟩ := mem_pastBy.1 answered
        exact Or.inl ⟨login, token, owner, rfl, answered, login_of_issued run recorded event⟩
      · obtain ⟨message, got⟩ := told_of_ok run found endpoint accepted
        obtain ⟨outgoing, reply, contact⟩ := contacted_of_told run got
        exact Or.inr ⟨endpoint, ⟨outgoing, reply, contact⟩, logged_in_of_sent run found contact⟩
  · cases accepted

/-- A JSON library that reads a login, an `ack` and the answer to the creation of a room. -/
def ackLib : Nlohmann where
  parse? s :=
    if s = "login" then
      some (.object [("password", .string "secret"), ("username", .string "alice")])
    else if s = "ack" then
      some (.object [("janus", .string "ack"), ("transaction", .string "test123")])
    else if s = "room" then
      some (.object [("janus", .string "success"), ("plugindata", .object [("data", .object
        [("room", .unsigned 5)])]), ("transaction", .string "test123")])
    else none
  dump _ := "room"
  castOverflow _ := 0

end Service

end Lynks
