import Lynks.JsonText
import Lynks.Network.Idle
import Lynks.Network.Replies
import Lynks.Network.Tokens

/-!
# `log_in_user` and the session store

A login from the request body to the session it opens. The constructor of `user` swallows its
exceptions, so `log_in_user` goes on with whatever has been filled in: only a body with both
strings leaves a password that any row can have (`ofJson_cases`), but the verdict of
`validate_user` on the requested name is lost. `log_in_user_iff` says who gets a session, and
`requested_name_valid_iff` when the requested name is a valid one.
-/

namespace Lynks
set_option autoImplicit false

open Lib Handler

/-! ## The reply -/

/-- A hash is written in characters that need no escape. -/
theorem hash256_plain (sha : Sha256) (str : String) :
    ∀ c ∈ (hash256 sha str).toList, JsonText.isPlain c = true := by
  have digits : hexDigits.all JsonText.isPlain = true := by decide
  intro c mem
  exact List.all_eq_true.1 digits c ((hash256_isHash sha str).2 c mem)

/-- The members of a successful login's body. -/
def replyMembers (token : String) : List (List Char × List Char) :=
  [("action".toList, "succesful".toList), ("token".toList, token.toList)]

theorem loginReply_text (token : String) : (loginReply token).toList =
    '\x7b' :: (JsonText.membersText (replyMembers token) ++ ['\x7d']) := by
  have append (a b c : String) : (a ++ b ++ c).toList = a.toList ++ b.toList ++ c.toList := by
    rw [String.toList_append, String.toList_append]
  have before : "\x7b\"action\": \"succesful\",\"token\": \"".toList =
      '\x7b' :: (JsonText.memberText ("action".toList, "succesful".toList) ++
        ',' :: '"' :: "token".toList ++ ['"', ':', ' ', '"']) := by decide
  have after : "\"\x7d".toList = ['"', '\x7d'] := by decide
  have text : (loginReply token).toList = _ := append _ token _
  rw [text, before, after]
  simp only [replyMembers, JsonText.membersText, JsonText.memberText, List.cons_append,
    List.append_assoc, List.nil_append]

/-- The body of a successful login is a JSON object with the token in it. -/
theorem readFlatObject_loginReply {token : String}
    (plain : ∀ c ∈ token.toList, JsonText.isPlain c = true) :
    JsonText.readFlatObject (loginReply token) =
      some (.object [("action", .string "succesful"), ("token", .string token)]) := by
  have action : JsonText.Plain ("action".toList, "succesful".toList) := by
    have left : "action".toList.all JsonText.isPlain = true := by decide
    have right : "succesful".toList.all JsonText.isPlain = true := by decide
    exact ⟨List.all_eq_true.1 left, List.all_eq_true.1 right⟩
  have key : "token".toList.all JsonText.isPlain = true := by decide
  have fields : (replyMembers token).map JsonText.field =
      [("action", .string "succesful"), ("token", .string token)] := by
    simp only [replyMembers, List.map_cons, List.map_nil, JsonText.field, String.ofList_toList]
  rw [← fields]
  apply JsonText.readFlatObject_membersText (loginReply_text token) (List.cons_ne_nil _ _)
  · intro m mem
    rcases List.mem_cons.1 mem with rfl | mem
    · exact action
    · rw [List.mem_singleton.1 mem]
      exact ⟨List.all_eq_true.1 key, plain⟩
  · rw [fields]
    change ["action", "token"].Pairwise (· < ·)
    decide

/-! ## The login -/

variable (lib : Nlohmann) (sha : Sha256)

/-- The answers to a login: the store issues the token drawn, at the reading taken, and all else
is answered by `w`. -/
def serve (w : World) (generated : String) (now : UInt64) (s : SessionHandler) :
    (o : Op) → o.Ans × SessionHandler
  | .newSession username =>
    ((s.newSession username generated now).2, (s.newSession username generated now).1)
  | o => (w.answer o, s)

/-- A login on a store: the reply, and the store left. -/
def logIn (w : World) (draws : Draws) (now : UInt64) (s : SessionHandler) (body : String) :
    Outcome Exception (Option String) × SessionHandler :=
  (logInUser lib sha body).runState (serve w (generateToken sha draws) now) s

/-- The body is a JSON object with these strings under `username` and `password`. -/
def Credentials (body username password : String) : Prop :=
  ∃ j, lib.parse? body = some j ∧ j.stringField? "username" = some username ∧
    j.stringField? "password" = some password

/-- The lookup of the requested name finds a valid row with the hash of the password. -/
def Authenticates (w : World) (username password : String) (user : User) : Prop :=
  ∃ rows, w.sendQuery selectByUsername username = some rows ∧ Resolves rows user ∧
    user.password = hash256 sha password

variable {lib sha}

/-- Only a body with both strings leaves the constructor with a password. -/
theorem ofJson_cases (lib : Nlohmann) (sha : Sha256) (body : String) :
    (∃ username password, Credentials lib body username password ∧
        User.ofJson lib sha body = ⟨0, username, hash256 sha password⟩) ∨
      ((User.ofJson lib sha body).password = "" ∧
        ∀ username password, ¬ Credentials lib body username password) := by
  unfold User.ofJson Nlohmann.parse Credentials
  cases parsed : lib.parse? body with
  | none => exact Or.inr ⟨rfl, by simp⟩
  | some j =>
    rcases j.readString_cases "username" with ⟨username, named, u⟩ | ⟨e, unnamed, u⟩
    · rcases j.readString_cases "password" with ⟨password, read, p⟩ | ⟨e, unread, p⟩
      · refine Or.inl ⟨username, password, ⟨j, rfl, u, p⟩, ?_⟩
        simp [named, read, User.hashPassword]
      · exact Or.inr ⟨by simp [named, unread, User.empty], by simp [p]⟩
    · exact Or.inr ⟨by simp [unnamed, User.empty], by simp [u]⟩

variable {w : World} {draws : Draws} {now : UInt64} {s : SessionHandler}

/-- A lookup does not touch the store. -/
theorem findUserByUsername_runState (generated username : String) :
    (findUserByUsername username).runState (serve w generated now) s =
      ((findUserByUsername username).run w.answer, s) := by
  have asked : (sendQuery selectByUsername username).runState (serve w generated now) s =
      (.ok (w.sendQuery selectByUsername username), s) := rfl
  rw [findUserByUsername_run, findUserByUsername, Prog.runState_bind, asked]
  cases w.sendQuery selectByUsername username <;> rfl

/-- `log_in_user` after its lookup. -/
theorem logIn_eq (body : String) : logIn lib sha w draws now s body =
    match (findUserByUsername (User.ofJson lib sha body).username).run w.answer with
    | .ok (some user) =>
      if (User.ofJson lib sha body).password = user.password then
        (.ok ((s.newSession user.username (generateToken sha draws) now).2.map loginReply),
          (s.newSession user.username (generateToken sha draws) now).1)
      else (.ok none, s)
    | .ok none => (.ok none, s)
    | .throws e => (.throws e, s)
    | .undefined => (.undefined, s) := by
  unfold logIn logInUser
  simp only
  rw [Prog.runState_bind, findUserByUsername_runState]
  cases (findUserByUsername (User.ofJson lib sha body).username).run w.answer with
  | ok result =>
    cases result with
    | none => rfl
    | some user =>
      have issue : (Handler.newSession user.username).runState
          (serve w (generateToken sha draws) now) s =
          (.ok (s.newSession user.username (generateToken sha draws) now).2,
            (s.newSession user.username (generateToken sha draws) now).1) := rfl
      by_cases same : (User.ofJson lib sha body).password = user.password
      · simp only [same, if_true]
        rw [Prog.runState_bind, issue]
        cases (s.newSession user.username (generateToken sha draws) now).2 <;> rfl
      · simp only [same, if_false]
        rfl
  | throws e => rfl
  | undefined => rfl

theorem ofJson_of_credentials {body username password : String}
    (credentials : Credentials lib body username password) :
    User.ofJson lib sha body = ⟨0, username, hash256 sha password⟩ := by
  obtain ⟨j, parsed, u, p⟩ := credentials
  simp [User.ofJson, Nlohmann.parse, parsed, Json.readString_eq_ok.2 u, Json.readString_eq_ok.2 p,
    User.hashPassword]

/-- What `log_in_user` compares comes out equal only for a user that is authenticated: a row's
password has 64 characters, and the constructor leaves no other password of that length. -/
theorem found_iff {body : String} {user : User} :
    (∃ rows, w.sendQuery selectByUsername (User.ofJson lib sha body).username = some rows ∧
      Resolves rows user ∧ (User.ofJson lib sha body).password = user.password) ↔
    ∃ username password, Credentials lib body username password ∧
      Authenticates sha w username password user := by
  constructor
  · rintro ⟨rows, query, resolves, same⟩
    rcases ofJson_cases lib sha body with
      ⟨username, password, credentials, built⟩ | ⟨empty, -⟩
    · rw [built] at query same
      exact ⟨username, password, credentials, rows, query, resolves, same.symm⟩
    · obtain ⟨rest, -, -, -, length⟩ := resolves
      rw [← same, empty] at length
      cases length
  · rintro ⟨username, password, credentials, rows, query, resolves, same⟩
    rw [ofJson_of_credentials credentials]
    exact ⟨rows, query, resolves, same.symm⟩

theorem newSession_room (username generated : String) (now : UInt64)
    (room : s.sessions.length < s.maxSessions.toNat) :
    (s.newSession username generated now).2 = some generated ∧
      (s.newSession username generated now).1.sessions =
        s.sessions ++ [.new username generated now] := by
  simp [SessionHandler.newSession, room, SessionToken.new]

theorem newSession_full (username generated : String) (now : UInt64)
    (full : ¬ s.sessions.length < s.maxSessions.toNat) :
    (s.newSession username generated now).2 = none ∧
      (s.newSession username generated now).1.sessions = s.sessions := by
  simp [SessionHandler.newSession, full, SessionHandler.cleanInactiveSessions]

section

variable (lib sha w draws now s)

/-- A login asks the store for a session of the user it authenticates, if there is one, and
leaves the store alone otherwise. -/
theorem logIn_found (body : String) :
    (∃ user, (∃ username password, Credentials lib body username password ∧
        Authenticates sha w username password user) ∧
      logIn lib sha w draws now s body =
        (.ok ((s.newSession user.username (generateToken sha draws) now).2.map loginReply),
          (s.newSession user.username (generateToken sha draws) now).1)) ∨
    ((¬ ∃ user username password, Credentials lib body username password ∧
        Authenticates sha w username password user) ∧
      (∀ reply, (logIn lib sha w draws now s body).1 ≠ .ok (some reply)) ∧
      (logIn lib sha w draws now s body).2 = s) := by
  have nobody (none : ∀ rows user,
      w.sendQuery selectByUsername (User.ofJson lib sha body).username = some rows →
        Resolves rows user → (User.ofJson lib sha body).password ≠ user.password) :
      ¬ ∃ user username password, Credentials lib body username password ∧
        Authenticates sha w username password user := by
    rintro ⟨user, authenticated⟩
    obtain ⟨rows, query, resolves, same⟩ := found_iff.2 authenticated
    exact none rows user query resolves same
  rw [logIn_eq]
  rcases @findUserByUsername_cases w (User.ofJson lib sha body).username with
    ⟨rows, user, query, resolves, found⟩ | ⟨missing, unknown⟩ | ⟨escaped, rows, query, null⟩
  · rw [found]
    by_cases same : (User.ofJson lib sha body).password = user.password
    · left
      exact ⟨user, found_iff.1 ⟨rows, query, resolves, same⟩, if_pos same⟩
    · right
      refine ⟨nobody fun rows' user' query' resolves' equal => ?_, ?_⟩
      · obtain rfl := Option.some.inj (query.symm.trans query')
        have known : user' = user := by
          have built := constructUserFromResult_eq_some.2 resolves
          rw [constructUserFromResult_eq_some.2 resolves'] at built
          exact Option.some.inj (Outcome.ok.inj built)
        exact same (known ▸ equal)
      · simp only [same, if_false]
        exact ⟨fun reply issued => (by cases issued), trivial⟩
  · rw [missing]
    right
    refine ⟨nobody fun rows user query resolves _ => (unknown rows query).2 user resolves, ?_⟩
    exact ⟨fun reply issued => (by cases issued), rfl⟩
  · rw [escaped]
    right
    refine ⟨nobody fun rows' user query' resolves _ => ?_, ?_⟩
    · obtain rfl := Option.some.inj (query.symm.trans query')
      exact resolves.not_null null
    · exact ⟨fun reply issued => (by cases issued), rfl⟩

/-- A login that is authenticated while the store has room opens a session and replies with its
token; any other leaves the sessions as they are. -/
theorem logIn_cases (body : String) :
    (∃ user, (∃ username password, Credentials lib body username password ∧
        Authenticates sha w username password user) ∧
      s.sessions.length < s.maxSessions.toNat ∧
      (logIn lib sha w draws now s body).1 =
        .ok (some (loginReply (generateToken sha draws))) ∧
      (logIn lib sha w draws now s body).2.sessions =
        s.sessions ++ [.new user.username (generateToken sha draws) now]) ∨
    (¬ ((∃ user username password, Credentials lib body username password ∧
        Authenticates sha w username password user) ∧
        s.sessions.length < s.maxSessions.toNat) ∧
      (∀ reply, (logIn lib sha w draws now s body).1 ≠ .ok (some reply)) ∧
      (logIn lib sha w draws now s body).2.sessions = s.sessions) := by
  rcases logIn_found lib sha w draws now s body with
    ⟨user, authenticated, outcome⟩ | ⟨nobody, refused, same⟩
  · rw [outcome]
    by_cases room : s.sessions.length < s.maxSessions.toNat
    · obtain ⟨issued, appended⟩ :=
        newSession_room user.username (generateToken sha draws) now room
      rw [issued]
      exact Or.inl ⟨user, authenticated, room, rfl, appended⟩
    · obtain ⟨refused, same⟩ :=
        newSession_full user.username (generateToken sha draws) now room
      rw [refused]
      exact Or.inr ⟨fun both => room both.2, fun reply issued => (by cases issued), same⟩
  · exact Or.inr ⟨fun both => nobody both.1, refused, by rw [same]⟩

/-- Who gets a token. -/
theorem logIn_issues_iff (body : String) :
    (∃ reply, (logIn lib sha w draws now s body).1 = .ok (some reply)) ↔
      (∃ user username password, Credentials lib body username password ∧
        Authenticates sha w username password user) ∧
      s.sessions.length < s.maxSessions.toNat := by
  rcases logIn_cases lib sha w draws now s body with
    ⟨user, authenticated, room, issued, -⟩ | ⟨nobody, refused, -⟩
  · exact ⟨fun _ => ⟨⟨user, authenticated⟩, room⟩, fun _ => ⟨_, issued⟩⟩
  · constructor
    · rintro ⟨reply, issued⟩
      exact absurd issued (refused reply)
    · exact fun both => absurd both nobody

end

/-! ## What a login is good for -/

/-- The token is accepted until it has been idle for 300000 ms, and no longer unless it is drawn
again. -/
def Lasts (token : String) (life : UInt64) (s : SessionHandler) : Prop :=
  ∀ ops t later refreshed, s.machineFrom.Run ops t →
    (life :: ops.flatMap SessionHandler.Op.readings ++ [later]).Pairwise (· ≤ ·) →
    (later.toNat < (SessionHandler.lifeAfter token life s ops).toNat + 300000 →
      (t.validateSession token later refreshed).2 = true) ∧
    ((∀ username reading, .newSession username token reading ∉ ops) →
      (SessionHandler.lifeAfter token life s ops).toNat + 300000 ≤ later.toNat →
      (t.validateSession token later refreshed).2 = false)

/-- A session whose token nobody else holds lasts. -/
theorem lasts_of_appended {s t : SessionHandler} {username token : String} {now : UInt64}
    (appended : t.sessions = s.sessions ++ [.new username token now])
    (fresh : ∀ u ∈ s.sessions, u.token ≠ token) : Lasts token now t := by
  have nobody : s.sessions.find? (fun u => token = u.token) = none := by
    simpa [List.find?_eq_none] using fun u mem => Ne.symm (fresh u mem)
  have stored : SessionHandler.lifeIn token t.sessions = some now := by
    simp [SessionHandler.lifeIn, appended, List.find?_append, nobody, SessionToken.new]
  have sole : SessionHandler.Sole token now t := by
    have unheld : (s.sessions.map (·.token)).count token = 0 := by
      rw [List.count_eq_zero, List.mem_map]
      rintro ⟨u, mem, same⟩
      exact fresh u mem same
    constructor
    · rw [appended, List.map_append, List.count_append, unheld, Nat.zero_add]
      exact List.count_le_length
    · intro u mem hit
      rw [appended] at mem
      rcases List.mem_append.1 mem with mem | mem
      · exact absurd hit (fresh u mem)
      · rw [List.mem_singleton.1 mem]
        rfl
  intro ops u later refreshed run clock
  constructor
  · exact SessionHandler.accepted_until_idle stored run clock
  · exact fun other idle => SessionHandler.rejected_when_idle sole run clock other idle

/-- **Who is logged in, and what that gives.** A login issues a token exactly when the body has
credentials that the lookup authenticates and the store has room. Then one session is stored,
of the row's user, the reply reads back with its token, and the token lasts if it was new.
Otherwise the sessions are untouched. -/
theorem log_in_user_iff (standard : lib.ReadsFlatObjects) (sha : Sha256) (w : World)
    (draws : Draws) (now : UInt64) (s : SessionHandler) (body : String) :
    ((∃ reply, (logIn lib sha w draws now s body).1 = .ok (some reply)) ↔
        (∃ user username password, Credentials lib body username password ∧
          Authenticates sha w username password user) ∧
        s.sessions.length < s.maxSessions.toNat) ∧
      (∀ reply, (logIn lib sha w draws now s body).1 = .ok (some reply) →
        ∃ user, (∃ username password, Credentials lib body username password ∧
            Authenticates sha w username password user) ∧
          (logIn lib sha w draws now s body).2.sessions =
            s.sessions ++ [.new user.username (generateToken sha draws) now] ∧
          (∃ j, lib.parse? reply = some j ∧
            j.stringField? "token" = some (generateToken sha draws)) ∧
          ((∀ t ∈ s.sessions, t.token ≠ generateToken sha draws) →
            Lasts (generateToken sha draws) now (logIn lib sha w draws now s body).2)) ∧
      ((∀ reply, (logIn lib sha w draws now s body).1 ≠ .ok (some reply)) →
        (logIn lib sha w draws now s body).2.sessions = s.sessions) := by
  refine ⟨logIn_issues_iff lib sha w draws now s body, ?_⟩
  rcases logIn_cases lib sha w draws now s body with
    ⟨user, authenticated, -, issued, appended⟩ | ⟨-, refused, same⟩
  · constructor
    · intro reply sent
      obtain rfl : loginReply (generateToken sha draws) = reply :=
        Option.some.inj (Outcome.ok.inj (issued.symm.trans sent))
      have reads : lib.parse? (loginReply (generateToken sha draws)) = some (.object
          [("action", .string "succesful"), ("token", .string (generateToken sha draws))]) :=
        standard _ _ (readFlatObject_loginReply (hash256_plain sha _))
      refine ⟨user, authenticated, appended, ⟨_, reads, ?_⟩, ?_⟩
      · simp [Json.stringField?, Json.field?, List.lookup_cons]
      · exact fun fresh => lasts_of_appended appended fresh
    · exact fun refused => absurd issued (refused _)
  · exact ⟨fun reply sent => absurd sent (refused reply), fun _ => same⟩

/-- A JSON library that reads flat objects and nothing else. -/
def flatLib : Nlohmann where
  parse? := JsonText.readFlatObject
  dump _ := ""
  castOverflow _ := 0

/-- A user, and a database with only this row, whose name it compares exactly. -/
def alice : User := ⟨1, "alice", hash256 zeroSha "secret"⟩

def aliceWorld : World := { passwordless with
  sendQuery := fun _ param =>
    some (if param = "alice" then [⟨1, some "alice", some (hash256 zeroSha "secret")⟩] else []) }

theorem alice_resolves :
    Resolves [⟨1, some "alice", some (hash256 zeroSha "secret")⟩] alice := by
  have valid : alice.Valid := ⟨by decide, by decide, hash256_length _ _⟩
  exact ⟨[], rfl, valid⟩

def someDraws : Draws := ⟨1, Vector.replicate 10 0, 2, Vector.replicate 10 0⟩

theorem log_in_user_iff_alice :
    ∃ reply, (logIn flatLib zeroSha aliceWorld someDraws 1000 (.new 1)
      "\x7b\"password\": \"secret\", \"username\": \"alice\"\x7d").1 = .ok (some reply) := by
  have standard : flatLib.ReadsFlatObjects := fun _ _ read => read
  have credentials : Credentials flatLib
      "\x7b\"password\": \"secret\", \"username\": \"alice\"\x7d" "alice" "secret" :=
    ⟨.object [("password", .string "secret"), ("username", .string "alice")],
      by rfl, by rfl, by rfl⟩
  have authenticates : Authenticates zeroSha aliceWorld "alice" "secret" alice :=
    ⟨_, rfl, alice_resolves, rfl⟩
  exact (log_in_user_iff standard zeroSha aliceWorld someDraws 1000 (.new 1) _).1.2
    ⟨⟨_, _, _, credentials, authenticates⟩, by decide⟩

/-! ## The requested name -/

theorem Credentials.unique {body username password username' password' : String}
    (one : Credentials lib body username password)
    (other : Credentials lib body username' password') :
    username = username' ∧ password = password' := by
  obtain ⟨j, parsed, u, p⟩ := one
  obtain ⟨j', parsed', u', p'⟩ := other
  obtain rfl := Option.some.inj (parsed.symm.trans parsed')
  exact ⟨Option.some.inj (u.symm.trans u'), Option.some.inj (p.symm.trans p')⟩

/-- The verdict that the constructor throws away is on the requested name. -/
theorem validateUser_ofJson (body : String) :
    User.validateUser (User.ofJson lib sha body) = .ok () ↔
      ∃ username password, Credentials lib body username password ∧
        User.usernameMatches username = true := by
  rw [User.validateUser_eq_ok]
  rcases ofJson_cases lib sha body with
    ⟨username, password, credentials, built⟩ | ⟨empty, none⟩
  · rw [built]
    constructor
    · exact fun valid => ⟨username, password, credentials, valid.2.1⟩
    · rintro ⟨username', password', credentials', accepted⟩
      obtain ⟨rfl, -⟩ := credentials.unique credentials'
      exact ⟨Int64.le_refl 0, accepted, hash256_length _ _⟩
  · constructor
    · rintro ⟨-, -, length⟩
      rw [empty] at length
      cases length
    · rintro ⟨username, password, credentials, -⟩
      exact absurd credentials (none username password)

/-- **When a rejected name is logged in.** The verdict on the requested name is respected unless
the lookup of a name that fails the expression finds a valid row with the hash of the password
and the store has room. -/
theorem requested_name_valid_iff (lib : Nlohmann) (sha : Sha256) (w : World) (draws : Draws)
    (now : UInt64) (s : SessionHandler) (body : String) :
    ((∃ reply, (logIn lib sha w draws now s body).1 = .ok (some reply)) →
        User.validateUser (User.ofJson lib sha body) = .ok ()) ↔
      ¬ ∃ username password user, Credentials lib body username password ∧
        User.usernameMatches username = false ∧ Authenticates sha w username password user ∧
        s.sessions.length < s.maxSessions.toNat := by
  rw [logIn_issues_iff, validateUser_ofJson]
  constructor
  · rintro respected ⟨username, password, user, credentials, fails, authenticates, room⟩
    obtain ⟨username', password', credentials', accepted⟩ :=
      respected ⟨⟨user, username, password, credentials, authenticates⟩, room⟩
    obtain ⟨rfl, -⟩ := credentials.unique credentials'
    rw [fails] at accepted
    cases accepted
  · rintro never ⟨⟨user, username, password, credentials, authenticates⟩, room⟩
    refine ⟨username, password, credentials, ?_⟩
    by_contra rejected
    have fails : User.usernameMatches username = false := Bool.not_eq_true _ ▸ rejected
    exact never ⟨username, password, user, credentials, fails, authenticates, room⟩

/-- A lookup that compares names exactly logs no rejected name in. -/
theorem requested_name_valid_of_exact {body : String}
    (exact_lookup : ∀ username rows user, w.sendQuery selectByUsername username = some rows →
      Resolves rows user → user.username = username)
    (issued : ∃ reply, (logIn lib sha w draws now s body).1 = .ok (some reply)) :
    User.validateUser (User.ofJson lib sha body) = .ok () := by
  obtain ⟨⟨user, username, password, credentials, rows, query, resolves, -⟩, -⟩ :=
    (logIn_issues_iff lib sha w draws now s body).1 issued
  have named : user.username = username := exact_lookup username rows user query resolves
  obtain ⟨rest, -, valid⟩ := resolves
  exact (validateUser_ofJson body).2 ⟨username, password, credentials, named ▸ valid.2.1⟩

/-- A login as `alíce`, in the bytes of UTF-8, and a library that reads it. -/
def accentBody : String :=
  "\x7b\"password\": \"secret\", \"username\": \"al\u00c3\u00adce\"\x7d"

def accentLib : Nlohmann := { flatLib with
  parse? := fun s =>
    if s = accentBody then
      some (.object [("password", .string "secret"), ("username", .string "al\u00c3\u00adce")])
    else flatLib.parse? s }

/-- The database under a collation that ignores accents. -/
def accentWorld : World := { aliceWorld with
  sendQuery := fun sql param =>
    aliceWorld.sendQuery sql (if param = "al\u00c3\u00adce" then "alice" else param) }

/-- That name is rejected, and gets the session of `alice`. -/
theorem rejected_name_logged_in :
    ¬ ((∃ reply, (logIn accentLib zeroSha accentWorld someDraws 1000 (.new 1) accentBody).1 =
          .ok (some reply)) →
        User.validateUser (User.ofJson accentLib zeroSha accentBody) = .ok ()) := by
  intro respected
  have reads : accentLib.parse? accentBody = some (.object
      [("password", .string "secret"), ("username", .string "al\u00c3\u00adce")]) := by
    simp [accentLib]
  have credentials : Credentials accentLib accentBody "al\u00c3\u00adce" "secret" :=
    ⟨_, reads, by rfl, by rfl⟩
  have authenticates : Authenticates zeroSha accentWorld "al\u00c3\u00adce" "secret" alice :=
    ⟨_, rfl, alice_resolves, rfl⟩
  have issued : ∃ reply,
      (logIn accentLib zeroSha accentWorld someDraws 1000 (.new 1) accentBody).1 =
        .ok (some reply) := by
    rw [logIn_issues_iff]
    exact ⟨⟨_, _, _, credentials, authenticates⟩, by decide⟩
  obtain ⟨username, password, credentials', accepted⟩ :=
    (validateUser_ofJson accentBody).1 (respected issued)
  obtain ⟨rfl, -⟩ := credentials.unique credentials'
  revert accepted
  decide

end Lynks
