import Lynks.Network.Gate
import Lynks.Network.Service

/-!
# Who may reach Janus

What the gate asks of a handler alone it asks of each in every run, and the store only knows
tokens that a login was given (`stored_of_run`). `janus_only_when_permitted` reads both off the
history: whoever contacts Janus holds a token that an earlier login issued, that was active at
both lookups, and whose owner the database resolves to a valid user.
-/

namespace Lynks
set_option autoImplicit false

open Lib Janus Handler

/-! ## What a record says -/

namespace Record

/-- The token is in the store, with this owner, and active at the reading. -/
def Active (r : Record) (token owner : String) : Prop :=
  ∃ t ∈ r.store.sessions, t.token = token ∧ t.ownerIdentifier = owner ∧ t.isActive r.now = true

/-- A login puts the token into the store. -/
def Issues (r : Record) (token : String) : Prop :=
  r.request.target = "/login" ∧ ∃ username, r.event = issued username (some token)

def ContactsJanus (r : Record) : Prop :=
  ∃ request body, r.event = sent request body

end Record

/-- Before `x`, its handler was told that the token of its `Authorization` field, which an
earlier login issued, is valid; who owns it; and the row of the owner, a valid user. The token
was active at both readings. -/
def Permitted (before : List Record) (x : Record) : Prop :=
  (x.request.target = "/create" ∨ x.request.target = "/list_participants") ∧
    ∃ token username rows user b₁ v b₂ g b₃ q b₄,
      x.request.authorization = some token ∧ Resolves rows user ∧
      before = b₁ ++ v :: (b₂ ++ g :: (b₃ ++ q :: b₄)) ∧
      (v.handler = x.handler ∧ v.event = validated token true ∧ ∃ owner, v.Active token owner) ∧
      (g.handler = x.handler ∧ g.event = owned token (some username) ∧ g.Active token username) ∧
      (q.handler = x.handler ∧ q.event = queried selectByUsername username (some rows)) ∧
      ∃ l ∈ b₁, l.Issues token

namespace Service

variable {lib : Nlohmann} {sha : Sha256} {host : String} {maxSessions : UInt16} {s : Service}

/-- Every stored token was issued by a login. -/
theorem stored_of_run {es : List ServiceEvent}
    (run : (service lib sha host maxSessions).Run es s) :
    ∀ t ∈ s.store.sessions, ∃ r ∈ history lib sha host maxSessions es, r.Issues t.token := by
  refine traced (I := fun h store => ∀ t ∈ store.sessions, ∃ r ∈ h, r.Issues t.token)
    handleRequest_wp run ?_ ?_ ?_
  · intro t mem
    cases mem
  · intro h x refreshed store inv allowed admitted u mem
    rcases storeAfter_sessions admitted u mem with ⟨v, old, token, -⟩ | opened
    · obtain ⟨r, inside, issues⟩ := inv v old
      exact ⟨r, List.mem_append_left _ inside, token ▸ issues⟩
    · rw [opened] at allowed
      exact ⟨x, by simp, allowed, _, opened⟩
  · intro h store nows store' inv passed u mem
    rcases SessionHandler.step_sessions passed u mem with
      old | ⟨_, _, _, other, -⟩ | ⟨_, _, _, other, -⟩
    · exact inv u old
    · cases other
    · cases other

/-- **Janus is contacted only by a handler with permission.** -/
theorem permitted_of_contact {es : List ServiceEvent}
    (run : (service lib sha host maxSessions).Run es s) {before after : List Record} {x : Record}
    (split : history lib sha host maxSessions es = before ++ x :: after)
    (contacts : x.ContactsJanus) : Permitted before x := by
  have allowed := allowed_of_run handleRequest_wp run split
  obtain ⟨outgoing, body, event⟩ := contacts
  rw [event] at allowed
  obtain ⟨endpoint, token, username, rows, user, path, header, resolves, past⟩ := allowed
  obtain ⟨b₁, v, rest, rfl, vOwn, vEvent, past⟩ := pastBy_eq_cons past
  obtain ⟨b₂, g, rest, rfl, gOwn, gEvent, past⟩ := pastBy_eq_cons past
  obtain ⟨b₃, q, b₄, rfl, qOwn, qEvent, -⟩ := pastBy_eq_cons past
  -- the run up to each of the two lookups shows what the store held
  have whole : history lib sha host maxSessions es =
      (b₁ ++ v :: b₂) ++ g :: (b₃ ++ q :: (b₄ ++ x :: after)) := by simp [split]
  have whole' : history lib sha host maxSessions es =
      b₁ ++ v :: (b₂ ++ g :: (b₃ ++ q :: (b₄ ++ x :: after))) := by simp [split]
  obtain ⟨fs, u, _, _, earlier, rfl, store, admitted₁⟩ := record_at run whole'
  obtain ⟨_, _, _, _, -, -, -, admitted₂⟩ := record_at run whole
  rw [vEvent] at admitted₁
  rw [gEvent] at admitted₂
  obtain ⟨t₁, mem₁, hit₁, active₁⟩ := storeAfter_validated admitted₁
  have active₂ := storeAfter_owned admitted₂
  obtain ⟨l, mem, issues⟩ := stored_of_run earlier t₁ (store ▸ mem₁)
  exact ⟨endpoint, token, username, rows, user, _, v, b₂, g, b₃, q, b₄, header, resolves, rfl,
    ⟨vOwn, vEvent, t₁.ownerIdentifier, t₁, mem₁, hit₁, rfl, active₁⟩, ⟨gOwn, gEvent, active₂⟩,
    ⟨qOwn, qEvent⟩, l, mem, hit₁ ▸ issues⟩

/-- **Only whom the gate permits reaches Janus or gets meeting data.** Whenever Janus is
contacted, the handler has permission; and a request that is answered with 200 is a login that
got a new token, or contacted Janus with permission. -/
theorem janus_only_when_permitted {es : List ServiceEvent}
    (run : (service lib sha host maxSessions).Run es s) :
    (∀ before x after, history lib sha host maxSessions es = before ++ x :: after →
      x.ContactsJanus → Permitted before x) ∧
    ∀ (i : Nat) (f : InFlight) (response : HttpResponse), s.inFlight[i]? = some f →
      f.program = .done (.ok response) → response.result = .ok →
        (f.request.target = "/login" ∧ ∃ token, response.body = loginReply token ∧
          ∃ r ∈ history lib sha host maxSessions es, r.handler = i ∧ r.Issues token) ∨
        ∃ before x after, history lib sha host maxSessions es = before ++ x :: after ∧
          x.handler = i ∧ x.request = f.request ∧ x.ContactsJanus ∧ Permitted before x := by
  refine ⟨fun before x after split => permitted_of_contact run split, ?_⟩
  intro i f response found ended accepted
  have ends := within_of_run handleRequest_wp run found
  rw [ended, Prog.wp_done] at ends
  have request : ∀ r ∈ history lib sha host maxSessions es, r.handler = i →
      r.request = f.request := by
    rintro r mem rfl
    exact request_of_record run mem found
  rcases ends accepted with ⟨login, username, token, opened, body⟩ | ⟨-, outgoing, body, contacted⟩
  · obtain ⟨r, mem, own, event⟩ := mem_pastBy.1 opened
    have issues : r.Issues token := ⟨(request r mem own).symm ▸ login, username, event⟩
    exact Or.inl ⟨login, token, body, r, mem, own, issues⟩
  · obtain ⟨x, mem, own, event⟩ := mem_pastBy.1 contacted
    obtain ⟨before, after, split⟩ := List.append_of_mem mem
    have contacts : x.ContactsJanus := ⟨outgoing, body, event⟩
    exact Or.inr ⟨before, x, after, split, own, request x mem own, contacts,
      permitted_of_contact run split contacts⟩

/-- A JSON library that reads one login. -/
def loginLib : Nlohmann where
  parse? s :=
    if s = "login" then
      some (.object [("password", .string "secret"), ("username", .string "alice")])
    else none
  dump _ := ""
  castOverflow _ := 0

def constantSha : Sha256 := ⟨fun _ => Vector.replicate 32 0⟩

def aliceRow : Row := ⟨1, some "alice", some (hash256 constantSha "secret")⟩

/-- A login, and a meeting created with its token. -/
def meetingRun : List ServiceEvent :=
  [.arrive ⟨"/login", 11, none, "login"⟩,
    .perform 0 (queried selectByUsername "alice" (some [aliceRow])) 0 0,
    .perform 0 (issued "alice" (some "a1")) 1000 0,
    .arrive ⟨"/create", 11, some "a1", ""⟩,
    .perform 1 (validated "a1" true) 2000 2001,
    .perform 1 (owned "a1" (some "alice")) 2002 0,
    .perform 1 (queried selectByUsername "alice" (some [aliceRow])) 0 0,
    .perform 1 (located "/janus/1/2") 0 0,
    .perform 1 (sent (RequestMapper.postRequest .createRoom "" "janus" "/janus/1/2") none) 0 0]

theorem janus_only_when_permitted_meetingRun :
    ∃ s, (service loginLib constantSha "janus" 10).Run meetingRun s ∧
      ∃ before x, history loginLib constantSha "janus" 10 meetingRun = before ++ [x] ∧
        Permitted before x := by
  obtain ⟨s, run⟩ : ∃ s, (service loginLib constantSha "janus" 10).Run meetingRun s := ⟨_, rfl⟩
  have some_records : history loginLib constantSha "janus" 10 meetingRun ≠ [] := fun h => by cases h
  have split := (List.dropLast_append_getLast some_records).symm
  exact ⟨s, run, _, _, split, (janus_only_when_permitted run).1 _ _ [] split ⟨_, _, rfl⟩⟩

end Service

end Lynks
