import Mathlib.Data.List.Pairwise
import Lynks.Network.Backend

/-!
# From the socket to the socket

A response on a connection followed back to where it came from. `Linked` ties every response
produced for a connection to the coroutine and the handler it comes from; with the runs of the
server and of the service this gives, for the whole system and in any interleaving:

* a response answers a request read from the same connection, with the verdict of that
  request's own handler, and no request is answered twice (`responses_accounted_for`);
* a 200 to a request on the video room was earned by a login (`served_to_logged_in`);
* a session token is told to one client only, if no token is drawn twice (`token_told_once`).
-/

namespace Lynks
set_option autoImplicit false

open Lib Janus Handler

namespace Server

variable {s t : Server}

/-- Coroutines are spawned in the order their requests are handled. -/
theorem owned_sublist {es : List ServerEvent} (run : server.Run es s) :
    (s.coroutines.map Coroutine.owned).Sublist (server.log handledOf es) := by
  refine Machine.Run.induct (M := server) (I := fun es s =>
    (s.coroutines.map Coroutine.owned).Sublist (server.log handledOf es))
    (List.Sublist.refl _) ?_ run
  intro es s e t run ih taken
  rw [Machine.log_snoc run]
  rcases queue_cases taken with
    ⟨client, request, rfl, -, same⟩ | ⟨owned, rfl, popped, spawned | same⟩ | ⟨other, -, -, same⟩
  · rw [same]
    exact ih.trans (List.sublist_append_left _ _)
  · rw [spawned, List.map_append]
    simpa [handledOf, popped] using ih.append (List.Sublist.refl [owned])
  · rw [same]
    exact ih.trans (List.sublist_append_left _ _)
  · rw [same]
    exact ih.trans (List.sublist_append_left _ _)

/-- No two coroutines handle the same request. -/
theorem coroutines_nodup {es : List ServerEvent} (run : server.Run es s) :
    (s.coroutines.map fun co => (co.owned.client, co.owned.number)).Nodup := by
  have all := read_nodup run
  rw [readOf_eq run, List.map_append] at all
  have handled := all.sublist (List.sublist_append_left _ _)
  have part := (owned_sublist run).map fun owned => (owned.client, owned.number)
  rw [List.map_map] at part
  exact handled.sublist part

/-- A request has one coroutine at most. -/
theorem coroutine_unique {es : List ServerEvent} (run : server.Run es s) {i j : Nat}
    {co co' : Coroutine} (found : s.coroutines[i]? = some co)
    (found' : s.coroutines[j]? = some co') (client : co.owned.client = co'.owned.client)
    (number : co.owned.number = co'.owned.number) : i = j := by
  have keyed : ∀ (k : Nat) (co : Coroutine), s.coroutines[k]? = some co →
      (s.coroutines.map fun co => (co.owned.client, co.owned.number))[k]? =
        some (co.owned.client, co.owned.number) := by
    intro k co found
    rw [List.getElem?_map, found, Option.map_some]
  refine (List.getElem?_inj ?_ (coroutines_nodup run)).1 ?_
  · rw [List.length_map]
    exact (List.getElem?_eq_some_iff.1 found).1
  · rw [keyed i co found, keyed j co' found', client, number]

/-- A step that ends no coroutine at most spawns one. -/
theorem coroutines_step {e : ServerEvent} (taken : s.step e = some t)
    (goesOn : ∀ i response, e ≠ .finish i response) : s.coroutines <+: t.coroutines := by
  cases e with
  | finish i response => exact absurd rfl (goesOn i response)
  | read client request =>
    obtain ⟨c, -, -, rfl⟩ := read_cases taken
    exact List.prefix_rfl
  | update =>
    obtain ⟨owned, rest, -, rfl⟩ := update_cases taken
    rcases onRequest_cases (s := { s with requests := rest }) owned with spawned | ⟨_, gone⟩
    · rw [spawned]
      exact List.prefix_append _ _
    · exact gone ▸ List.prefix_rfl
  | accept =>
    obtain rfl := Option.some.inj taken
    exact List.prefix_rfl
  | readFail client =>
    obtain ⟨c, -, -, rfl⟩ := readFail_cases taken
    exact List.prefix_rfl
  | runPosted =>
    obtain ⟨client, a, rest, c, -, -, rfl⟩ := runPosted_cases taken
    exact List.prefix_rfl
  | writeDone client =>
    obtain ⟨c, -, -, rfl⟩ := writeDone_cases taken
    exact List.prefix_rfl
  | writeFail client =>
    obtain ⟨c, -, -, rfl⟩ := writeFail_cases taken
    exact List.prefix_rfl

/-- Only the end of a coroutine produces a response. -/
theorem completed_nil {e : ServerEvent} (goesOn : ∀ i response, e ≠ .finish i response)
    (client : Nat) : completed client s e = [] := by
  cases e with
  | finish i response => exact absurd rfl (goesOn i response)
  | _ => rfl

/-- What the end of a coroutine produces. -/
theorem completed_finish {i : Nat} {owned : OwnedRequest} {client : Nat}
    (running : s.coroutines[i]? = some ⟨owned, false⟩) (response : Option HttpResponse) :
    completed client s (.finish i response) =
      if owned.client = client then (response.map (Answer.mk owned.number)).toList else [] := by
  cases response <;> simp [completed, running]

end Server

namespace Backend

/-! ## Where a response comes from -/

/-- The `i`-th coroutine has ended, for this request, with this response of its handler. -/
def EndedWith (s : Backend) (i : Nat) (owned : OwnedRequest) (response : HttpResponse) : Prop :=
  s.server.coroutines[i]? = some ⟨owned, true⟩ ∧
    s.service.inFlight[i]? = some ⟨owned.request, .done (.ok response)⟩

/-- Coroutines and handlers correspond, and each response produced for a connection comes from
a coroutine of its own. -/
structure Linked (s : Backend) : Prop where
  aligned : s.service.inFlight.map (·.request) = s.server.coroutines.map (·.owned.request)
  answered : ∀ client, ∀ a ∈ s.server.produced client, ∃ i owned, owned.client = client ∧
    owned.number = a.number ∧ s.EndedWith i owned a.response
  once : ∀ client, ((s.server.produced client).map Answer.number).Nodup

variable {lib : Nlohmann} {sha : Sha256} {host : String} {maxSessions : UInt16} {s t : Backend}

theorem EndedWith.mono {i : Nat} {owned : OwnedRequest} {response : HttpResponse}
    (ended : s.EndedWith i owned response) (coroutines : s.server.coroutines <+: t.server.coroutines)
    (inFlight : s.service.inFlight <+: t.service.inFlight) : t.EndedWith i owned response := by
  obtain ⟨⟨len, here⟩, len', here'⟩ :=
    And.intro (List.getElem?_eq_some_iff.1 ended.1) (List.getElem?_eq_some_iff.1 ended.2)
  constructor
  · rw [List.prefix_iff_getElem?.1 coroutines i len, here]
  · rw [List.prefix_iff_getElem?.1 inFlight i len', here']

/-- A coroutine is spawned together with its handler. -/
theorem Linked.server (linked : Linked s) {e : ServerEvent}
    (taken : s.step lib sha host (.server e) = some t) : Linked t := by
  obtain ⟨goesOn, server, moved, rfl⟩ := server_cases taken
  have spawns := Server.coroutines_step moved goesOn
  have produced : ∀ client, server.produced client = s.server.produced client := by
    intro client
    rw [Server.produced_step moved, Server.completed_nil goesOn, List.append_nil]
  constructor
  · obtain ⟨new, split⟩ := spawns
    simp only [startAll, spawned, ← split, List.drop_left, List.map_append, linked.aligned,
      List.map_map]
    rfl
  · intro client a mem
    rw [produced] at mem
    obtain ⟨i, owned, rfl, number, ended⟩ := linked.answered client a mem
    exact ⟨i, owned, rfl, number, ended.mono spawns (List.prefix_append _ _)⟩
  · intro client
    rw [produced]
    exact linked.once client

/-- A handler that has ended is asked for nothing. -/
theorem Linked.perform (linked : Linked s) {i : Nat} {event : Event} {now refreshed : UInt64}
    (taken : s.step lib sha host (.perform i event now refreshed) = some t) : Linked t := by
  obtain ⟨service, moved, rfl⟩ := Option.map_eq_some_iff.1 taken
  obtain ⟨f, program, store, found, resumed, -, rfl⟩ := Service.perform_cases moved
  refine ⟨?_, ?_, linked.once⟩
  · rw [← linked.aligned]
    exact map_set_same found rfl
  · intro client a mem
    obtain ⟨j, owned, rfl, number, ended, done⟩ := linked.answered client a mem
    refine ⟨j, owned, rfl, number, ended, ?_⟩
    by_cases same : i = j
    · subst same
      rw [found] at done
      obtain rfl := Option.some.inj done
      cases resumed
    · exact (List.getElem?_set_ne same).trans done

/-- What a handler returns is what its coroutine sends. -/
theorem Linked.finish (linked : Linked s) {es : List ServerEvent}
    (run : Lynks.server.Run es s.server) {i : Nat}
    (taken : s.step lib sha host (.finish i) = some t) : Linked t := by
  obtain ⟨f, response, server, found, ended, finished, rfl⟩ := finish_cases taken
  have produced := Server.produced_finish finished
  obtain ⟨owned, running, rfl⟩ := Server.finish_cases finished
  have len : i < s.server.coroutines.length := (List.getElem?_eq_some_iff.1 running).1
  have request : f.request = owned.request := by
    have here := congrArg (fun requests => requests[i]?) linked.aligned
    simpa [found, running] using here
  -- the coroutines that had ended are still there, and this one is none of them
  have earlier : ∀ client, ∀ a ∈ s.server.produced client, ∃ j o, o.client = client ∧
      o.number = a.number ∧ j ≠ i ∧ s.EndedWith j o a.response := by
    intro client a mem
    obtain ⟨j, o, rfl, number, here, done⟩ := linked.answered client a mem
    have other : j ≠ i := by
      rintro rfl
      rw [running] at here
      cases here
    exact ⟨j, o, rfl, number, other, here, done⟩
  have fresh : ∀ a ∈ s.server.produced owned.client, a.number ≠ owned.number := by
    intro a mem same
    obtain ⟨j, o, client, number, other, here, -⟩ := earlier owned.client a mem
    exact other (Server.coroutine_unique run here running client (number.trans same))
  have kept : (s.server.coroutines.set i ⟨owned, true⟩).map (·.owned.request) =
      s.server.coroutines.map (·.owned.request) := map_set_same running rfl
  constructor
  · exact linked.aligned.trans kept.symm
  · intro client a mem
    rw [produced, Server.completed_finish running] at mem
    rcases List.mem_append.1 mem with old | new
    · obtain ⟨j, o, rfl, number, other, here, done⟩ := earlier client a old
      exact ⟨j, o, rfl, number, (List.getElem?_set_ne other.symm).trans here, done⟩
    · split at new
      · rename_i mine
        rw [Option.mem_toList, Option.map_eq_some_iff] at new
        obtain ⟨r, rfl, rfl⟩ := new
        refine ⟨i, owned, mine, rfl, List.getElem?_set_self len, ?_⟩
        rw [← request, ← endOf_eq_some ended]
        exact found
      · cases new
  · intro client
    rw [produced, Server.completed_finish running, List.map_append]
    split
    · rename_i mine
      subst mine
      rw [List.nodup_append]
      refine ⟨linked.once owned.client, ?_, ?_⟩
      · cases response <;> simp
      · intro n mem n' mem' same
        obtain ⟨a, old, rfl⟩ := List.mem_map.1 mem
        have number : n' = owned.number := by
          cases response with
          | none => cases mem'
          | some r => exact List.mem_singleton.1 mem'
        exact fresh a old (same.trans number)
    · simpa using linked.once client

variable {es : List BackendEvent}

theorem linked_of_run (run : (machine lib sha host maxSessions).Run es s) : Linked s := by
  refine Machine.Run.induct (M := machine lib sha host maxSessions) (I := fun _ s => Linked s)
    ?_ ?_ run
  · constructor
    · rfl
    · intro client a mem
      cases mem
    · exact fun client => List.nodup_nil
  · intro es s e t run linked (taken : s.step lib sha host e = some t)
    cases e with
    | server e => exact linked.server taken
    | perform i event now refreshed => exact linked.perform taken
    | finish i =>
      obtain ⟨fs, matched, -⟩ := server_run run
      exact linked.finish matched taken
    | cleanup nows =>
      obtain ⟨service, moved, rfl⟩ := Option.map_eq_some_iff.1 taken
      obtain ⟨store, -, rfl⟩ := Option.map_eq_some_iff.1 moved
      exact ⟨linked.aligned, linked.answered, linked.once⟩

/-! ## The whole way -/

/-- What has been given to a connection comes from a handler of a request read there. -/
theorem given_cases (run : (machine lib sha host maxSessions).Run es s) {client : Nat} {a : Answer}
    (mem : a ∈ (s.server.view client).given) :
    ∃ i request, ⟨client, a.number, request⟩ ∈ reads lib sha host maxSessions es ∧
      s.EndedWith i ⟨client, a.number, request⟩ a.response := by
  obtain ⟨fs, matched, same⟩ := server_run run
  have produced := (Server.given_produced s.server client).subset mem
  obtain ⟨i, owned, rfl, number, ended⟩ := (linked_of_run run).answered client a produced
  have handled := Server.coroutine_handled matched _ (List.mem_of_getElem? ended.1)
  obtain ⟨target, n, request⟩ := owned
  obtain rfl : n = a.number := number
  refine ⟨i, request, ?_, ended⟩
  rw [same, Server.readOf_eq matched]
  exact List.mem_append_left _ handled

/-- **Every response is accounted for.** What is written or queued on a connection answers a
request that was read from it, with the verdict of the script on what that request's own
handler was answered; and no request has two responses. -/
theorem responses_accounted_for (run : (machine lib sha host maxSessions).Run es s)
    (client : Nat) :
    (∀ a ∈ (s.server.view client).given, ∃ i request,
      ⟨client, a.number, request⟩ ∈ reads lib sha host maxSessions es ∧
      s.EndedWith i ⟨client, a.number, request⟩ a.response ∧
      Concludes lib sha request (pastOf i (history lib sha host maxSessions es))
        (.ok a.response)) ∧
    ((s.server.view client).given.map Answer.number).Nodup := by
  constructor
  · intro a mem
    obtain ⟨i, request, read, ended⟩ := given_cases run mem
    obtain ⟨fs, matched, same⟩ := service_run run
    refine ⟨i, request, read, ended, ?_⟩
    rw [same]
    exact Service.concludes_of_run matched ended.2
  · have part := (Server.given_produced s.server client).sublist.map Answer.number
    exact ((linked_of_run run).once client).sublist part

/-- A request is read once under its number. -/
theorem read_unique (run : (machine lib sha host maxSessions).Run es s) {client number : Nat}
    {request request' : HttpRequest}
    (read : ⟨client, number, request⟩ ∈ reads lib sha host maxSessions es)
    (read' : ⟨client, number, request'⟩ ∈ reads lib sha host maxSessions es) :
    request = request' := by
  obtain ⟨fs, matched, same⟩ := server_run run
  rw [same] at read read'
  have one := List.inj_on_of_nodup_map (Server.read_nodup matched) read read' rfl
  injection one

/-- The handler of a response that a connection has been given. -/
theorem handled_of_given (run : (machine lib sha host maxSessions).Run es s) {client : Nat}
    {a : Answer} {request : HttpRequest} (mem : a ∈ (s.server.view client).given)
    (read : ⟨client, a.number, request⟩ ∈ reads lib sha host maxSessions es) :
    ∃ i, s.EndedWith i ⟨client, a.number, request⟩ a.response := by
  obtain ⟨i, request', read', ended⟩ := given_cases run mem
  obtain rfl := read_unique run read read'
  exact ⟨i, ended⟩

/-- The token an operation issues. -/
def issuedToken (r : Record) : Option String :=
  match r.event with
  | ⟨.newSession _, token⟩ => token
  | _ => none

/-- Tokens drawn distinct tell the logins apart. -/
theorem issuer_unique {h : List Record} (distinct : (h.filterMap issuedToken).Nodup)
    {x y : Record} {token : String} (mem : x ∈ h) (mem' : y ∈ h)
    (issues : issuedToken x = some token) (issues' : issuedToken y = some token) : x = y := by
  by_contra other
  have apart := List.pairwise_filterMap.1 distinct
  have symmetric : Std.Symm fun x y : Record => ∀ b, issuedToken x = some b →
      ∀ b', issuedToken y = some b' → b ≠ b' :=
    ⟨fun x y differ b here b' there => (differ b' there b here).symm⟩
  exact apart.forall mem mem' other token issues token issues' rfl

/-- A login told its client the token that its own handler was given. -/
theorem issuer_of_login (run : (machine lib sha host maxSessions).Run es s) {client : Nat}
    {a : Answer} {request : HttpRequest} {token : String}
    (mem : a ∈ (s.server.view client).given)
    (read : ⟨client, a.number, request⟩ ∈ reads lib sha host maxSessions es)
    (login : request.target = "/login") (accepted : a.response.result = .ok)
    (told : a.response.body = loginReply token) :
    ∃ x ∈ history lib sha host maxSessions es, issuedToken x = some token ∧
      s.EndedWith x.handler ⟨client, a.number, request⟩ a.response := by
  obtain ⟨i, ended⟩ := handled_of_given run mem read
  obtain ⟨fs, matched, same⟩ := service_run run
  rcases Service.ok_logged_in matched ended.2 accepted with
    ⟨-, token', owner, body, issues, -⟩ | ⟨path | path, -⟩
  · obtain rfl := loginReply_injective (told.symm.trans body)
    obtain ⟨x, recorded, rfl, event⟩ := mem_pastBy.1 issues
    refine ⟨x, same ▸ recorded, ?_, ended⟩
    rw [issuedToken, event]
    rfl
  · rw [login] at path
    exact absurd path (by decide)
  · rw [login] at path
    exact absurd path (by decide)

/-- **A token is told once.** If no token is drawn twice, two logins answered with the same one
are the same request on the same connection. -/
theorem token_told_once (run : (machine lib sha host maxSessions).Run es s)
    (distinct : ((history lib sha host maxSessions es).filterMap issuedToken).Nodup)
    {client client' : Nat} {a a' : Answer} {request request' : HttpRequest} {token : String}
    (mem : a ∈ (s.server.view client).given) (mem' : a' ∈ (s.server.view client').given)
    (read : ⟨client, a.number, request⟩ ∈ reads lib sha host maxSessions es)
    (read' : ⟨client', a'.number, request'⟩ ∈ reads lib sha host maxSessions es)
    (login : request.target = "/login") (login' : request'.target = "/login")
    (accepted : a.response.result = .ok) (accepted' : a'.response.result = .ok)
    (told : a.response.body = loginReply token) (told' : a'.response.body = loginReply token) :
    client = client' ∧ a.number = a'.number := by
  obtain ⟨x, recorded, issues, ended⟩ := issuer_of_login run mem read login accepted told
  obtain ⟨y, recorded', issues', ended'⟩ := issuer_of_login run mem' read' login' accepted' told'
  obtain rfl := issuer_unique distinct recorded recorded' issues issues'
  have same := Option.some.inj (ended.1.symm.trans ended'.1)
  injection same with same
  injection same with client number
  exact ⟨client, number⟩

open Service (loginLib constantSha aliceRow)

/-- A client that logs in, from the accept to the response on its connection. -/
def loginRun : List BackendEvent :=
  [.server .accept, .server (.read 0 ⟨"/login", 11, none, "login"⟩), .server .update,
    .perform 0 (queried selectByUsername "alice" (some [aliceRow])) 0 0,
    .perform 0 (issued "alice" (some "a1")) 1000 0, .finish 0, .server .runPosted]

/-- What the client is sent. -/
def loginAnswer : Answer :=
  ⟨0, Router.succesfulRequest ⟨"/login", 11, none, "login"⟩ (loginReply "a1")⟩

theorem loginRun_given : ∃ s, (machine loginLib constantSha "janus" 10).Run loginRun s ∧
    (s.server.view 0).given = [loginAnswer] := ⟨_, rfl, rfl⟩

theorem responses_accounted_for_loginRun :
    ∃ s, (machine loginLib constantSha "janus" 10).Run loginRun s ∧
      loginAnswer ∈ (s.server.view 0).given ∧
      ∃ request, ⟨0, 0, request⟩ ∈ reads loginLib constantSha "janus" 10 loginRun := by
  obtain ⟨s, run, given⟩ := loginRun_given
  have mem : loginAnswer ∈ (s.server.view 0).given := by simp [given]
  obtain ⟨i, request, read, -⟩ := (responses_accounted_for run 0).1 loginAnswer mem
  exact ⟨s, run, mem, request, read⟩

theorem token_told_once_loginRun :
    ∃ s, (machine loginLib constantSha "janus" 10).Run loginRun s ∧
      (s.server.view 0).given = [loginAnswer] ∧
      ∀ client, loginAnswer ∈ (s.server.view client).given →
        ⟨client, 0, ⟨"/login", 11, none, "login"⟩⟩ ∈
          reads loginLib constantSha "janus" 10 loginRun → client = 0 := by
  obtain ⟨s, run, given⟩ := loginRun_given
  have mem : loginAnswer ∈ (s.server.view 0).given := by simp [given]
  have tokens : (history loginLib constantSha "janus" 10 loginRun).filterMap issuedToken =
      ["a1"] := rfl
  have distinct : ((history loginLib constantSha "janus" 10 loginRun).filterMap
      issuedToken).Nodup := by
    rw [tokens]
    exact List.nodup_singleton _
  have read : (⟨0, 0, ⟨"/login", 11, none, "login"⟩⟩ : OwnedRequest) ∈
      reads loginLib constantSha "janus" 10 loginRun := by decide
  refine ⟨s, run, given, fun client mem' read' => ?_⟩
  exact (token_told_once run distinct mem' mem read' read rfl rfl rfl rfl rfl rfl).1

end Backend

end Lynks
