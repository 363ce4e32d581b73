import Lynks.Lib.Coroutines
import Lynks.Network.Router
import Lynks.Network.SessionRuns

/-!
# The requests in flight

All requests handled at once over one session store, in any interleaving with each other and
with the cleanup thread; the database and Janus may answer anything, at any time. The history of
a run has one record for each operation a handler performs, with the store it met and the clock
reading it took. The Janus context is not part of the state: that `start` may stop it, and who is
then answered no more, is in `Starting`.

The service is a pool of coroutines over the store (`simulates`, `of_pool`), so what is proved of
one handler alone, for any answers, holds of each in every run.
-/

namespace Lynks
set_option autoImplicit false

open Lib Janus Handler

/-- A request being handled. -/
structure InFlight where
  request : HttpRequest
  program : Handler HttpResponse

/-- The session store and the requests being handled. -/
structure Service where
  store : SessionHandler
  inFlight : List InFlight

inductive ServiceEvent where
  | arrive (request : HttpRequest)
  /-- a handler's next operation is answered; the readings are those the store takes -/
  | perform (i : Nat) (event : Event) (now refreshed : UInt64)
  /-- a pass of the cleanup thread -/
  | cleanup (nows : List UInt64)

/-- The operation on the session store and the answer that an event stands for. -/
def storeOperation (now refreshed : UInt64) :
    Event → Option (SessionHandler.Op × SessionHandler.Answer)
  | ⟨.newSession username, token⟩ =>
    some (.newSession username (Option.getD token "") now, .token token)
  | ⟨.validateSession token, valid⟩ => some (.validateSession token now refreshed, .valid valid)
  | ⟨.getUsernameByToken token, owner⟩ => some (.getUsernameByToken token now, .username owner)
  | _ => none

/-- The store after an answer, if it is the one the store gives. -/
def storeAfter (store : SessionHandler) (now refreshed : UInt64) (event : Event) :
    Option SessionHandler :=
  match storeOperation now refreshed event with
  | some (op, answer) => if store.answer op = answer then store.step op else none
  | none => some store

section

variable (lib : Nlohmann) (sha : Sha256) (host : String)

def Service.step (s : Service) : ServiceEvent → Option Service
  | .arrive request =>
    some { s with inFlight := s.inFlight ++ [⟨request, Router.handleRequest lib sha host request⟩] }
  | .perform i event now refreshed =>
    match s.inFlight[i]? with
    | some f =>
      match f.program.resume? event, storeAfter s.store now refreshed event with
      | some program, some store =>
        some { store, inFlight := s.inFlight.set i { f with program } }
      | _, _ => none
    | none => none
  | .cleanup nows => (s.store.step (.cleanup nows)).map fun store => { s with store }

/-- The service from an empty store. -/
def service (maxSessions : UInt16) : Machine Service ServiceEvent where
  init := { store := .new maxSessions, inFlight := [] }
  step := Service.step lib sha host

/-- An operation performed: by which handler, for which request, with which answer, and the
store and the clock reading it met. -/
structure Record where
  handler : Nat
  request : HttpRequest
  event : Event
  store : SessionHandler
  now : UInt64

namespace Service

def record (s : Service) : ServiceEvent → Option Record
  | .perform i event now _ => s.inFlight[i]?.map fun f => ⟨i, f.request, event, s.store, now⟩
  | _ => none

/-- The operations performed in a run, in order. -/
def history (maxSessions : UInt16) (es : List ServiceEvent) : List Record :=
  (service lib sha host maxSessions).log (fun s e => (record s e).toList) es

end Service

end

/-- The events of one handler. -/
abbrev pastOf (i : Nat) (h : List Record) : List Event := pastBy Record.handler Record.event i h

/-! ## Steps -/

theorem storeAfter_of_answer {store store' : SessionHandler} {now refreshed : UInt64}
    {event : Event} {op : SessionHandler.Op} {answer : SessionHandler.Answer}
    (operation : storeOperation now refreshed event = some (op, answer))
    (answered : store.answer op = answer) (stepped : store.step op = some store') :
    storeAfter store now refreshed event = some store' := by
  unfold storeAfter
  rw [operation]
  exact (if_pos answered).trans stepped

namespace Service

variable {lib : Nlohmann} {sha : Sha256} {host : String} {maxSessions : UInt16} {s t : Service}

theorem perform_cases {i : Nat} {event : Event} {now refreshed : UInt64}
    (taken : s.step lib sha host (.perform i event now refreshed) = some t) :
    ∃ f program store, s.inFlight[i]? = some f ∧ f.program.resume? event = some program ∧
      storeAfter s.store now refreshed event = some store ∧
      t = { store, inFlight := s.inFlight.set i { f with program } } := by
  simp only [Service.step] at taken
  split at taken
  · rename_i f found
    split at taken
    · rename_i program store resumed admitted
      exact ⟨f, program, store, found, resumed, admitted, (Option.some.inj taken).symm⟩
    · cases taken
  · cases taken

/-- A record was written by a handler whose operation the store admitted. -/
theorem record_cases {e : ServiceEvent} {r : Record} (taken : s.step lib sha host e = some t)
    (written : s.record e = some r) :
    ∃ refreshed f program store, e = .perform r.handler r.event r.now refreshed ∧
      s.inFlight[r.handler]? = some f ∧ f.request = r.request ∧ r.store = s.store ∧
      f.program.resume? r.event = some program ∧
      storeAfter r.store r.now refreshed r.event = some store := by
  cases e with
  | perform i event now refreshed =>
    obtain ⟨f, program, store, found, resumed, admitted, -⟩ := perform_cases taken
    simp only [record, found, Option.map_some, Option.some.injEq] at written
    subst written
    exact ⟨refreshed, f, program, store, rfl, found, rfl, rfl, resumed, admitted⟩
  | arrive request => cases written
  | cleanup nows => cases written

theorem storeAfter_validated {store store' : SessionHandler} {now refreshed : UInt64}
    {token : String}
    (admitted : storeAfter store now refreshed (validated token true) = some store') :
    ∃ t ∈ store.sessions, t.token = token ∧ t.isActive now = true := by
  obtain ⟨answered, -⟩ := Option.ite_none_right_eq_some.1 admitted
  exact SessionHandler.validateSession_active (SessionHandler.Answer.valid.inj answered)

theorem storeAfter_owned {store store' : SessionHandler} {now refreshed : UInt64}
    {token username : String}
    (admitted : storeAfter store now refreshed (owned token (some username)) = some store') :
    ∃ t ∈ store.sessions, t.token = token ∧ t.ownerIdentifier = username ∧
      t.isActive now = true := by
  obtain ⟨answered, -⟩ := Option.ite_none_right_eq_some.1 admitted
  exact SessionHandler.getUsernameByToken_active (SessionHandler.Answer.username.inj answered)

/-- An answer keeps each session's token and owner, and adds at most the session it opens. -/
theorem storeAfter_sessions {store store' : SessionHandler} {now refreshed : UInt64}
    {event : Event} (admitted : storeAfter store now refreshed event = some store') :
    ∀ u ∈ store'.sessions,
      (∃ v ∈ store.sessions, v.token = u.token ∧ v.ownerIdentifier = u.ownerIdentifier) ∨
        event = issued u.ownerIdentifier (some u.token) := by
  intro u mem
  unfold storeAfter at admitted
  split at admitted
  · rename_i op answer operation
    obtain ⟨answered, stepped⟩ := Option.ite_none_right_eq_some.1 admitted
    rcases SessionHandler.step_sessions stepped u mem with
      old | ⟨username, generated, _, rfl, rfl, opened⟩ | ⟨_, _, _, -, v, old, rfl⟩
    · exact Or.inl ⟨u, old, rfl, rfl⟩
    · rw [opened] at answered
      obtain ⟨o, a⟩ := event
      cases o with
      | newSession username' =>
        simp only [storeOperation, Option.some.injEq, Prod.mk.injEq,
          SessionHandler.Op.newSession.injEq] at operation
        obtain ⟨⟨rfl, -, -⟩, rfl⟩ := operation
        right
        rw [← SessionHandler.Answer.token.inj answered]
        rfl
      | validateSession token => simp [storeOperation] at operation
      | getUsernameByToken token => simp [storeOperation] at operation
      | sendQuery sql param => simp [storeOperation] at operation
      | getPath => simp [storeOperation] at operation
      | sendTemporary request => simp [storeOperation] at operation
      | waitForTransaction transaction => simp [storeOperation] at operation
    · exact Or.inl ⟨v, old, rfl, rfl⟩
  · obtain rfl := Option.some.inj admitted
    exact Or.inl ⟨u, mem, rfl, rfl⟩

/-! ## A pool of coroutines -/

section

variable (lib sha host maxSessions)

/-- The handlers as coroutines. The hint of an answer is the clock readings the store takes. -/
def coroutines : Coroutines SessionHandler HttpRequest (UInt64 × UInt64) (List UInt64) Op Op.Ans
    Exception HttpResponse where
  init := .new maxSessions
  body := Router.handleRequest lib sha host
  react store readings event := storeAfter store readings.1 readings.2 event
  background store nows := store.step (.cleanup nows)

end

def poolEvent : ServiceEvent → PoolEvent HttpRequest (UInt64 × UInt64) (List UInt64) Op Op.Ans
  | .arrive request => .start request
  | .perform i event now refreshed => .answer i (now, refreshed) event
  | .cleanup nows => .background nows

def task (f : InFlight) : Task HttpRequest Op Op.Ans Exception HttpResponse :=
  ⟨f.request, f.program⟩

def pool (s : Service) : Pool SessionHandler HttpRequest Op Op.Ans Exception HttpResponse :=
  ⟨s.store, s.inFlight.map task⟩

/-- The record of an entry. -/
def recordOf (x : Entry SessionHandler HttpRequest (UInt64 × UInt64) Op Op.Ans) : Record :=
  ⟨x.task, x.request, x.event, x.shared, x.hint.1⟩

theorem tasks_pool {i : Nat} : (pool s).tasks[i]? = s.inFlight[i]?.map task := List.getElem?_map

/-- A step of the service is the step of the pool. -/
theorem step_pool {e : ServiceEvent} (taken : s.step lib sha host e = some t) :
    (coroutines lib sha host maxSessions).step (pool s) (poolEvent e) = some (pool t) := by
  cases e with
  | arrive request =>
    obtain rfl := Option.some.inj taken
    simp [Coroutines.step, poolEvent, pool, task, coroutines]
  | perform i event now refreshed =>
    obtain ⟨f, program, store, found, resumed, admitted, rfl⟩ := perform_cases taken
    have admitted' : (coroutines lib sha host maxSessions).react s.store (now, refreshed) event =
        some store := admitted
    simp only [Coroutines.step, poolEvent, tasks_pool, found, Option.map_some]
    simp [pool, task, resumed, admitted', List.map_set]
  | cleanup nows =>
    obtain ⟨store, passed, rfl⟩ := Option.map_eq_some_iff.1 taken
    have passed' : (coroutines lib sha host maxSessions).background s.store nows = some store :=
      passed
    simp [Coroutines.step, poolEvent, pool, passed']

theorem record_pool (s : Service) (e : ServiceEvent) : (s.record e).toList =
    (Coroutines.entry (pool s) (poolEvent e)).toList.map recordOf := by
  cases e with
  | perform i event now refreshed =>
    simp only [record, Coroutines.entry, poolEvent, tasks_pool]
    cases s.inFlight[i]? <;> simp [recordOf, task, pool]
  | arrive request => rfl
  | cleanup nows => rfl

/-- **Every run of the service is one of the pool**, with the same history. -/
theorem simulates {es : List ServiceEvent} (run : (service lib sha host maxSessions).Run es s) :
    ∃ fs, (coroutines lib sha host maxSessions).machine.Run fs (pool s) ∧
      history lib sha host maxSessions es =
        ((coroutines lib sha host maxSessions).history fs).map recordOf := by
  obtain ⟨a, matched, rfl, same⟩ := Machine.Run.simulate_log
    (N := (coroutines lib sha host maxSessions).machine) (R := fun s a => a = pool s)
    (k := fun _ e => [poolEvent e]) (f := fun s e => (record s e).toList)
    (g := fun a e => (Coroutines.entry a e).toList.map recordOf) rfl
    (by
      rintro s e t a rfl taken
      refine ⟨pool t, ?_, rfl, ?_⟩
      · have moved : (coroutines lib sha host maxSessions).step (pool s) (poolEvent e) =
            some (pool t) := step_pool taken
        simp only [Machine.exec, Coroutines.machine, moved, Option.bind_some]
      · rw [Machine.observe_singleton]
        exact record_pool s e) run
  refine ⟨_, matched, ?_⟩
  have filtered := (coroutines lib sha host maxSessions).machine.log_filterMap
    (fun s e => (Coroutines.entry s e).toList) (fun x => some (recordOf x))
    ((service lib sha host maxSessions).log (fun _ e => [poolEvent e]) es)
  simp only [List.filterMap_eq_map'] at filtered
  exact same.trans filtered.symm

/-! ## And back -/

def serviceEvent : PoolEvent HttpRequest (UInt64 × UInt64) (List UInt64) Op Op.Ans → ServiceEvent
  | .start request => .arrive request
  | .answer i readings event => .perform i event readings.1 readings.2
  | .background nows => .cleanup nows

def ofTask (task : Task HttpRequest Op Op.Ans Exception HttpResponse) : InFlight :=
  ⟨task.request, task.program⟩

def ofPool (p : Pool SessionHandler HttpRequest Op Op.Ans Exception HttpResponse) : Service :=
  ⟨p.shared, p.tasks.map ofTask⟩

theorem step_ofPool {p q : Pool SessionHandler HttpRequest Op Op.Ans Exception HttpResponse}
    {e : PoolEvent HttpRequest (UInt64 × UInt64) (List UInt64) Op Op.Ans}
    (taken : (coroutines lib sha host maxSessions).step p e = some q) :
    (ofPool p).step lib sha host (serviceEvent e) = some (ofPool q) := by
  rcases Coroutines.step_cases taken with ⟨request, rfl, -, rfl⟩ |
    ⟨i, readings, event, task, program, store, rfl, found, resumed, admitted, -, rfl⟩ |
    ⟨nows, store, rfl, passed, -, rfl⟩
  · simp [Service.step, serviceEvent, ofPool, ofTask, coroutines]
  · have admitted' : storeAfter p.shared readings.1 readings.2 event = some store := admitted
    simp [Service.step, serviceEvent, ofPool, ofTask, found, resumed, admitted', List.map_set]
  · have passed' : p.shared.step (.cleanup nows) = some store := passed
    simp [Service.step, serviceEvent, ofPool, passed']

theorem record_ofPool (p : Pool SessionHandler HttpRequest Op Op.Ans Exception HttpResponse)
    (e : PoolEvent HttpRequest (UInt64 × UInt64) (List UInt64) Op Op.Ans) :
    (Coroutines.entry p e).toList.map recordOf = ((ofPool p).record (serviceEvent e)).toList := by
  cases e with
  | answer i readings event =>
    simp only [record, Coroutines.entry, serviceEvent, ofPool, List.getElem?_map]
    cases p.tasks[i]? <;> simp [recordOf, ofTask]
  | start request => rfl
  | background nows => rfl

/-- **Every run of the pool is one of the service**, with the same history. -/
theorem of_pool {p : Pool SessionHandler HttpRequest Op Op.Ans Exception HttpResponse}
    {fs : List (PoolEvent HttpRequest (UInt64 × UInt64) (List UInt64) Op Op.Ans)}
    (run : (coroutines lib sha host maxSessions).machine.Run fs p) :
    ∃ es, (service lib sha host maxSessions).Run es (ofPool p) ∧
      ((coroutines lib sha host maxSessions).history fs).map recordOf =
        history lib sha host maxSessions es := by
  obtain ⟨a, matched, rfl, same⟩ := Machine.Run.simulate_log
    (N := service lib sha host maxSessions) (R := fun p a => a = ofPool p)
    (k := fun _ e => [serviceEvent e]) (f := fun p e => (Coroutines.entry p e).toList.map recordOf)
    (g := fun s e => (record s e).toList) rfl
    (by
      rintro p e q a rfl taken
      refine ⟨ofPool q, ?_, rfl, ?_⟩
      · have moved : (ofPool p).step lib sha host (serviceEvent e) = some (ofPool q) :=
          step_ofPool taken
        change ((ofPool p).step lib sha host (serviceEvent e)).bind _ = _
        rw [moved]
        rfl
      · rw [Machine.observe_singleton]
        exact record_ofPool p e) run
  refine ⟨_, matched, ?_⟩
  have filtered := (coroutines lib sha host maxSessions).machine.log_filterMap
    (fun s e => (Coroutines.entry s e).toList) (fun x => some (recordOf x)) fs
  simp only [List.filterMap_eq_map'] at filtered
  exact filtered.trans same

/-! ## The rules for handlers -/

theorem pastOf_map (i : Nat)
    (h : List (Entry SessionHandler HttpRequest (UInt64 × UInt64) Op Op.Ans)) :
    pastOf i (h.map recordOf) = Coroutines.pastOf i h := pastBy_map fun _ => ⟨rfl, rfl⟩

/-- The last thing a handler was answered, in the history. -/
theorem last_record {i : Nat} {h : List Record} {past : List Event} {e : Event}
    (last : pastOf i h = past ++ [e]) : ∃ before x after, h = before ++ x :: after ∧
      x.handler = i ∧ x.event = e ∧ pastOf i before = past := pastBy_eq_snoc last

/-- The handler of a record is one of those started, for the request of the record. -/
theorem handler_of_record {es : List ServiceEvent}
    (run : (service lib sha host maxSessions).Run es s) {r : Record}
    (mem : r ∈ history lib sha host maxSessions es) :
    ∃ f, s.inFlight[r.handler]? = some f ∧ f.request = r.request := by
  obtain ⟨fs, matched, same⟩ := simulates run
  rw [same] at mem
  obtain ⟨x, inside, rfl⟩ := List.mem_map.1 mem
  have followed := Coroutines.followed_of_run (G := fun _ _ _ => True) (Q := fun _ _ _ => True)
    (fun request => Prog.wp_trivial _ _) matched
  obtain ⟨t, known, request⟩ := followed.known x inside
  rw [tasks_pool] at known
  obtain ⟨f, found, rfl⟩ := Option.map_eq_some_iff.1 known
  exact ⟨f, found, request⟩

/-- The request of a record is the one its handler was started for. -/
theorem request_of_record {es : List ServiceEvent}
    (run : (service lib sha host maxSessions).Run es s) {x : Record}
    (recorded : x ∈ history lib sha host maxSessions es) {request : HttpRequest}
    {p : Handler HttpResponse} (found : s.inFlight[x.handler]? = some ⟨request, p⟩) :
    x.request = request := by
  obtain ⟨f, known, same⟩ := handler_of_record run recorded
  rw [found] at known
  obtain rfl := Option.some.inj known
  exact same.symm

/-- A record in a history, with the run that leads to it. -/
theorem record_at {es : List ServiceEvent} (run : (service lib sha host maxSessions).Run es s)
    {before after : List Record} {r : Record}
    (split : history lib sha host maxSessions es = before ++ r :: after) :
    ∃ (fs : List ServiceEvent) (u : Service) (refreshed : UInt64) (store : SessionHandler),
      (service lib sha host maxSessions).Run fs u ∧ before = history lib sha host maxSessions fs ∧
      u.store = r.store ∧ storeAfter r.store r.now refreshed r.event = some store := by
  obtain ⟨fs, e, gs, u, t, rfl, run', taken, rfl, written⟩ := Machine.Run.entry? run split
  obtain ⟨refreshed, _, _, store, -, -, -, same, -, admitted⟩ := record_cases taken written
  exact ⟨fs, u, refreshed, store, run', rfl, same.symm, admitted⟩

section

variable {G : HttpRequest → List Event → Lynks.Op → Prop}
  {Q : HttpRequest → List Event → Outcome Exception HttpResponse → Prop}
  (sound : ∀ request,
    (Router.handleRequest lib sha host request).wp (G request) (Q request) [])
  {es : List ServiceEvent} (run : (service lib sha host maxSessions).Run es s)

include sound run

/-- Every operation is one that the precondition allows its handler. -/
theorem allowed_of_run {before after : List Record} {x : Record}
    (split : history lib sha host maxSessions es = before ++ x :: after) :
    G x.request (pastOf x.handler before) x.event.1 := by
  obtain ⟨fs, matched, same⟩ := simulates run
  rw [same] at split
  obtain ⟨b, rest, split', rfl, tail⟩ := List.map_eq_append_iff.1 split
  obtain ⟨y, a, rfl, rfl, rfl⟩ := List.map_eq_cons_iff.1 tail
  rw [pastOf_map]
  exact Coroutines.allowed_of_run sound matched split'

/-- Every handler is within its precondition. -/
theorem within_of_run {i : Nat} {f : InFlight} (found : s.inFlight[i]? = some f) :
    f.program.wp (G f.request) (Q f.request)
      (pastOf i (history lib sha host maxSessions es)) := by
  obtain ⟨fs, matched, same⟩ := simulates run
  rw [same, pastOf_map]
  apply (Coroutines.followed_of_run sound matched).within i (task f)
  rw [tasks_pool, found]
  rfl

/-- Every end is one that the precondition promises. -/
theorem ended_of_run {i : Nat} {request : HttpRequest} {r : Outcome Exception HttpResponse}
    (found : s.inFlight[i]? = some ⟨request, .done r⟩) :
    Q request (pastOf i (history lib sha host maxSessions es)) r :=
  within_of_run sound run found

/-- What every allowed answer and every pass keeps holds of the history and the store. -/
theorem traced {I : List Record → SessionHandler → Prop} (start : I [] (.new maxSessions))
    (answer : ∀ h r refreshed store, I h r.store → G r.request (pastOf r.handler h) r.event.1 →
      storeAfter r.store r.now refreshed r.event = some store → I (h ++ [r]) store)
    (cleanup : ∀ h store nows store', I h store → store.step (.cleanup nows) = some store' →
      I h store') : I (history lib sha host maxSessions es) s.store := by
  obtain ⟨fs, matched, same⟩ := simulates run
  rw [same]
  refine Coroutines.traced (C := coroutines lib sha host maxSessions)
    (I := fun h store => I (h.map recordOf) store) sound start ?_ ?_ matched
  · intro h x store inv allowed admitted
    rw [List.map_append]
    rw [← pastOf_map] at allowed
    exact answer _ (recordOf x) x.hint.2 store inv allowed admitted
  · exact fun h store nows store' => cleanup _ store nows store'

end

end Service

end Lynks
