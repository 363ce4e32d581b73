import Lynks.Janus.LongPoll
import Lynks.Janus.ResponseBuffer
import Lynks.Network.Credentials

/-!
# Requests that Janus acknowledges

The handlers with the Janus client behind them. After an `ack` a handler is in a call of
`wait_for_transaction` on the response buffer, which only the long-poll loop fills; so what the
call returns is no longer open. The loop pushes nothing, hence in every run every such call
returns nothing (`waits_return_nothing`), and whatever Janus does later a request that was
acknowledged is not answered with 200: every 200 prints a direct reply (`served_directly`). There
is a loop only once `start` has gone through, so the Janus context runs for good here, and each
wait can end by its timeout (`wait_can_end`); `Starting` has the context that is stopped.
-/

namespace Lynks
set_option autoImplicit false

open Lib Janus Handler

/-- The service, the long-poll loop, the response buffer, and the call of `wait_for_transaction`
each handler is in. -/
structure Attached where
  service : Service
  poll : LongPoll
  buffer : ResponseBuffer
  waiting : Nat → Option Nat

inductive AttachedEvent where
  /-- a step of the service that is not the return of a wait -/
  | service (e : ServiceEvent)
  /-- one iteration of the long-poll loop -/
  | poll (read : Option String)
  /-- the handler calls `wait_for_transaction`, which looks into the buffer -/
  | wait (i : Nat)
  | register (j : Nat)
  | timeout (j : Nat)
  | resume (j : Nat)
  /-- the call has returned, and the handler goes on -/
  | goOn (i : Nat)

/-- The return of a wait. -/
def ServiceEvent.isWait : ServiceEvent → Bool
  | .perform _ ⟨.waitForTransaction _, _⟩ _ _ => true
  | _ => false

/-- The transaction a handler waits for. -/
def waitsFor : Handler HttpResponse → Option String
  | .act (.waitForTransaction transaction) _ => some transaction
  | _ => none

namespace Attached

section

variable (lib : Nlohmann) (sha : Sha256) (host : String) (maxSessions : UInt16)

/-- The loop reads, and pushes what it makes of it. -/
def pollOnce (s : Attached) (read : Option String) : Option Attached :=
  (s.poll.step lib read).map fun poll =>
    { s with
      poll
      buffer := (poll.pushed.drop s.poll.pushed.length).foldl ResponseBuffer.push s.buffer }

/-- The first stretch of a call, up to what it finds in the buffer. -/
def wait (s : Attached) (i : Nat) : Option Attached :=
  match s.service.inFlight[i]?.bind fun f => waitsFor f.program, s.waiting i with
  | some transaction, none =>
    some { s with
      buffer := s.buffer.lookup transaction
      waiting := Function.update s.waiting i (some s.buffer.calls.length) }
  | _, _ => none

/-- What the handler is answered is what its call has returned. -/
def returned (s : Attached) (i : Nat) : Option ServiceEvent :=
  match (s.waiting i).bind fun j => s.buffer.calls[j]? with
  | some ⟨transaction, .returned value, _⟩ => some (.perform i (waited transaction value) 0 0)
  | _ => none

def step (s : Attached) : AttachedEvent → Option Attached
  | .service e =>
    if e.isWait then none
    else (s.service.step lib sha host e).map fun service => { s with service }
  | .poll read => s.pollOnce lib read
  | .wait i => s.wait i
  | .register j => (s.buffer.register j).map fun buffer => { s with buffer }
  | .timeout j => (s.buffer.timeout j).map fun buffer => { s with buffer }
  | .resume j => (s.buffer.resume j).map fun buffer => { s with buffer }
  | .goOn i => (s.returned i).bind fun e =>
      (s.service.step lib sha host e).map fun service =>
        { s with service, waiting := Function.update s.waiting i none }

def machine : Machine Attached AttachedEvent where
  init :=
    { service := (Lynks.service lib sha host maxSessions).init
      poll := (longPollTask lib).init
      buffer := .empty
      waiting := fun _ => none }
  step := step lib sha host

end

/-- What the service does in a step. -/
def serviceEvents (s : Attached) : AttachedEvent → List ServiceEvent
  | .service e => [e]
  | .goOn i => (s.returned i).toList
  | _ => []

/-- What the loop does in a step. -/
def reads (_ : Attached) : AttachedEvent → List (Option String)
  | .poll read => [read]
  | _ => []

variable {lib : Nlohmann} {sha : Sha256} {host : String} {maxSessions : UInt16} {s t : Attached}

theorem service_cases {e : ServiceEvent} (taken : s.step lib sha host (.service e) = some t) :
    e.isWait = false ∧ ∃ service, s.service.step lib sha host e = some service ∧
      t = { s with service } := by
  obtain ⟨other, moved⟩ := Option.ite_none_left_eq_some.1 taken
  obtain ⟨service, next, rfl⟩ := Option.map_eq_some_iff.1 moved
  exact ⟨by simpa using other, service, next, rfl⟩

theorem goOn_cases {i : Nat} (taken : s.step lib sha host (.goOn i) = some t) :
    ∃ j transaction value result service, s.waiting i = some j ∧
      s.buffer.calls[j]? = some ⟨transaction, .returned value, result⟩ ∧
      s.returned i = some (.perform i (waited transaction value) 0 0) ∧
      s.service.step lib sha host (.perform i (waited transaction value) 0 0) = some service ∧
      t = { s with service, waiting := Function.update s.waiting i none } := by
  obtain ⟨e, answered, moved⟩ := Option.bind_eq_some_iff.1 taken
  obtain ⟨service, next, rfl⟩ := Option.map_eq_some_iff.1 moved
  have answered' := answered
  unfold returned at answered'
  split at answered'
  · rename_i transaction value result call
    obtain rfl := Option.some.inj answered'
    obtain ⟨j, waiting, found⟩ := Option.bind_eq_some_iff.1 call
    exact ⟨j, transaction, value, result, service, waiting, found, answered, next, rfl⟩
  · cases answered'

theorem wait_cases {i : Nat} (taken : s.wait i = some t) :
    ∃ f transaction, s.service.inFlight[i]? = some f ∧ waitsFor f.program = some transaction ∧
      s.waiting i = none ∧ t = { s with
        buffer := s.buffer.lookup transaction
        waiting := Function.update s.waiting i (some s.buffer.calls.length) } := by
  unfold wait at taken
  split at taken
  · rename_i transaction asked free
    obtain ⟨f, found, asks⟩ := Option.bind_eq_some_iff.1 asked
    exact ⟨f, transaction, found, asks, free, (Option.some.inj taken).symm⟩
  · cases taken

variable {es : List AttachedEvent}

theorem step_service {e : AttachedEvent} (taken : s.step lib sha host e = some t) :
    (Lynks.service lib sha host maxSessions).exec s.service (serviceEvents s e) =
      some t.service := by
  have one {e : ServiceEvent} {service : Service}
      (moved : s.service.step lib sha host e = some service) :
      (Lynks.service lib sha host maxSessions).exec s.service [e] = some service := by
    change (s.service.step lib sha host e).bind _ = _
    rw [moved]
    rfl
  cases e with
  | service e =>
    obtain ⟨-, service, moved, rfl⟩ := service_cases taken
    exact one moved
  | goOn i =>
    obtain ⟨j, transaction, value, result, service, -, -, answered, moved, rfl⟩ :=
      goOn_cases taken
    rw [serviceEvents, answered, Option.toList_some]
    exact one moved
  | poll read =>
    obtain ⟨poll, -, rfl⟩ := Option.map_eq_some_iff.1 taken
    rfl
  | wait i =>
    obtain ⟨f, transaction, -, -, -, rfl⟩ := wait_cases taken
    rfl
  | register j =>
    obtain ⟨buffer, -, rfl⟩ := Option.map_eq_some_iff.1 taken
    rfl
  | timeout j =>
    obtain ⟨buffer, -, rfl⟩ := Option.map_eq_some_iff.1 taken
    rfl
  | resume j =>
    obtain ⟨buffer, -, rfl⟩ := Option.map_eq_some_iff.1 taken
    rfl

theorem step_poll {e : AttachedEvent} (taken : s.step lib sha host e = some t) :
    (longPollTask lib).exec s.poll (reads s e) = some t.poll := by
  cases e with
  | poll read =>
    obtain ⟨poll, moved, rfl⟩ := Option.map_eq_some_iff.1 taken
    change (s.poll.step lib read).bind _ = _
    rw [moved]
    rfl
  | service e =>
    obtain ⟨-, service, -, rfl⟩ := service_cases taken
    rfl
  | goOn i =>
    obtain ⟨_, _, _, _, service, -, -, -, -, rfl⟩ := goOn_cases taken
    rfl
  | wait i =>
    obtain ⟨f, transaction, -, -, -, rfl⟩ := wait_cases taken
    rfl
  | register j =>
    obtain ⟨buffer, -, rfl⟩ := Option.map_eq_some_iff.1 taken
    rfl
  | timeout j =>
    obtain ⟨buffer, -, rfl⟩ := Option.map_eq_some_iff.1 taken
    rfl
  | resume j =>
    obtain ⟨buffer, -, rfl⟩ := Option.map_eq_some_iff.1 taken
    rfl

/-- Every run is one of the service. -/
theorem service_run (run : (machine lib sha host maxSessions).Run es s) :
    (Lynks.service lib sha host maxSessions).Run
      ((machine lib sha host maxSessions).log serviceEvents es) s.service :=
  run.project (π := Attached.service) rfl fun _ _ _ taken => step_service taken

/-- The loop never pushes anything. -/
theorem poll_run (run : (machine lib sha host maxSessions).Run es s) : s.poll.pushed = [] :=
  pushed_eq_nil (run.project (N := longPollTask lib) (π := Attached.poll) (k := reads) rfl
    fun _ _ _ taken => step_poll taken)

/-! ## A buffer that nobody fills -/

/-- Nothing is in the buffer, and no call has or is going to return anything. -/
structure Silent (s : ResponseBuffer) : Prop where
  messages : s.messages = []
  results : ∀ c ∈ s.calls, c.result = none
  values : ∀ c ∈ s.calls, ∀ value, c.stage = .returned value → value = none

theorem Silent.set {b : ResponseBuffer} (silent : Silent b) {j : Nat} {c : WaitCall}
    {waiters : String → Option Nat} (result : c.result = none)
    (value : ∀ v, c.stage = .returned v → v = none) :
    Silent { b with calls := b.calls.set j c, waiters } :=
  ⟨silent.messages, forall_set silent.results result, forall_set silent.values value⟩

theorem Silent.lookup {b : ResponseBuffer} (silent : Silent b) (transaction : String) :
    Silent (b.lookup transaction) := by
  have missed : ResponseBuffer.tryPopLocked transaction b.messages = none := by
    rw [silent.messages]
    rfl
  unfold ResponseBuffer.lookup
  rw [missed]
  refine ⟨silent.messages, forall_append silent.results rfl, forall_append silent.values ?_⟩
  exact fun value impossible => by cases impossible

theorem Silent.register {b b' : ResponseBuffer} (silent : Silent b) {j : Nat}
    (taken : b.register j = some b') : Silent b' := by
  obtain ⟨transaction, result, call, ⟨k, -, rfl⟩ | ⟨-, rfl⟩⟩ := ResponseBuffer.register_cases taken
  · have nothing := silent.results _ (List.mem_of_getElem? call)
    exact silent.set nothing fun v same => (Stage.returned.inj same).symm
  · have nothing := silent.results _ (List.mem_of_getElem? call)
    exact silent.set nothing fun v impossible => by cases impossible

theorem Silent.timeout {b b' : ResponseBuffer} (silent : Silent b) {j : Nat}
    (taken : b.timeout j = some b') : Silent b' := by
  obtain ⟨transaction, result, call, rfl⟩ := ResponseBuffer.timeout_cases taken
  have nothing := silent.results _ (List.mem_of_getElem? call)
  exact silent.set nothing fun v impossible => by cases impossible

theorem Silent.resume {b b' : ResponseBuffer} (silent : Silent b) {j : Nat}
    (taken : b.resume j = some b') : Silent b' := by
  obtain ⟨transaction, which, result, call, rfl⟩ := ResponseBuffer.resume_cases taken
  have nothing : result = none := silent.results _ (List.mem_of_getElem? call)
  refine silent.set nothing fun v same => ?_
  rw [← Stage.returned.inj same, nothing]
  cases which <;> rfl

theorem silent_of_run (run : (machine lib sha host maxSessions).Run es s) : Silent s.buffer := by
  refine Machine.Run.induct (M := machine lib sha host maxSessions)
    (I := fun _ s => Silent s.buffer) ⟨rfl, by simp [machine, ResponseBuffer.empty],
      by simp [machine, ResponseBuffer.empty]⟩ ?_ run
  intro es s e t run silent stepped
  have pushed := poll_run (run.snoc stepped)
  have taken : s.step lib sha host e = some t := stepped
  cases e with
  | poll read =>
    obtain ⟨poll, -, rfl⟩ := Option.map_eq_some_iff.1 taken
    have nothing : poll.pushed = [] := pushed
    simpa [nothing] using silent
  | service e =>
    obtain ⟨-, service, -, rfl⟩ := service_cases taken
    exact silent
  | goOn i =>
    obtain ⟨_, _, _, _, service, -, -, -, -, rfl⟩ := goOn_cases taken
    exact silent
  | wait i =>
    obtain ⟨f, transaction, -, -, -, rfl⟩ := wait_cases taken
    exact silent.lookup transaction
  | register j =>
    obtain ⟨buffer, moved, rfl⟩ := Option.map_eq_some_iff.1 taken
    exact silent.register moved
  | timeout j =>
    obtain ⟨buffer, moved, rfl⟩ := Option.map_eq_some_iff.1 taken
    exact silent.timeout moved
  | resume j =>
    obtain ⟨buffer, moved, rfl⟩ := Option.map_eq_some_iff.1 taken
    exact silent.resume moved

/-! ## What a wait returns -/

section

variable (lib sha host maxSessions)

/-- The operation a step performs. -/
def record (s : Attached) : AttachedEvent → List Record
  | .service e => (s.service.record e).toList
  | .goOn i => ((s.returned i).bind s.service.record).toList
  | _ => []

/-- The operations the handlers have performed in a run. -/
def history (es : List AttachedEvent) : List Record :=
  (machine lib sha host maxSessions).log record es

end

theorem record_service (s : Attached) (e : AttachedEvent) :
    s.record e = (Lynks.service lib sha host maxSessions).observe
      (fun s e => (s.record e).toList) s.service (serviceEvents s e) := by
  cases e with
  | service e =>
    rw [serviceEvents, Machine.observe_singleton]
    rfl
  | goOn i =>
    rw [record, serviceEvents]
    cases s.returned i with
    | none => rfl
    | some e =>
      rw [Option.toList_some, Machine.observe_singleton]
      rfl
  | _ => rfl

/-- The handlers' own run, with the same history. -/
theorem service_history (run : (machine lib sha host maxSessions).Run es s) :
    ∃ fs, (Lynks.service lib sha host maxSessions).Run fs s.service ∧
      history lib sha host maxSessions es = Service.history lib sha host maxSessions fs :=
  ⟨_, run.project_log (N := Lynks.service lib sha host maxSessions) (π := Attached.service)
    (k := serviceEvents) (f := record) (g := fun s e => (s.record e).toList) rfl
    (fun _ _ _ taken => step_service taken) record_service⟩

/-- A step tells a handler that waits nothing. -/
theorem unanswered_step {e : AttachedEvent} (silent : Silent s.buffer)
    (taken : s.step lib sha host e = some t) {r : Record} (recorded : r ∈ s.record e)
    {transaction : String} {message : Option ResponseMessage}
    (event : r.event = waited transaction message) : message = none := by
  cases e with
  | service e =>
    obtain ⟨other, service, moved, -⟩ := service_cases taken
    obtain ⟨refreshed, -, -, -, rfl, -⟩ :=
      Service.record_cases moved (Option.mem_toList.1 recorded)
    rw [event] at other
    cases other
  | goOn i =>
    obtain ⟨j, tx, value, result, service, -, call, answered, moved, -⟩ := goOn_cases taken
    rw [record, answered] at recorded
    obtain ⟨refreshed, -, -, -, same, -⟩ :=
      Service.record_cases moved (Option.mem_toList.1 recorded)
    have nothing := silent.values _ (List.mem_of_getElem? call) value rfl
    injection same with _ same
    rw [event, nothing] at same
    injection same with _ same
    cases same
    rfl
  | _ => cases recorded

/-- **No wait is ever answered.** -/
theorem waits_return_nothing (run : (machine lib sha host maxSessions).Run es s) :
    ∀ r ∈ history lib sha host maxSessions es, ∀ transaction message,
      r.event = waited transaction message → message = none := by
  intro r mem transaction message event
  obtain ⟨u, e, t, ⟨before, reached⟩, taken, recorded⟩ := Machine.Run.mem_log run mem
  exact unanswered_step (silent_of_run reached) taken recorded event

/-- The text a video-room endpoint makes of Janus's answer. -/
def Prints (lib : Nlohmann) (request : HttpRequest) (message : ResponseMessage) (text : String) :
    Prop :=
  (request.target = "/create" ∧ ∃ reply,
    UserCreateVideoResponse.new lib message.body = .ok reply ∧ text = reply.toJson lib) ∨
  (request.target = "/list_participants" ∧ ∃ reply,
    ListParticipantsResponse.new lib message.body = .ok reply ∧ text = reply.toJson lib)

/-- A verdict on a video-room endpoint prints what the handler was told. -/
theorem prints_of_verdict {request : HttpRequest} {past : List Event} {text : String}
    (endpoint : request.AsksJanus) (judged : verdict lib request past = some text) :
    ∃ message, told lib past = some message ∧ Prints lib request message text := by
  rcases endpoint with create | list
  · simp only [verdict, create] at judged
    obtain ⟨message, got, printed⟩ := Option.bind_eq_some_iff.1 judged
    obtain ⟨reply, built, rfl⟩ := Option.map_eq_some_iff.1 printed
    exact ⟨message, got, Or.inl ⟨create, reply, Outcome.value?_eq_some.1 built, rfl⟩⟩
  · simp only [verdict, list] at judged
    obtain ⟨message, got, printed⟩ := Option.bind_eq_some_iff.1 judged
    obtain ⟨reply, built, rfl⟩ := Option.map_eq_some_iff.1 printed
    exact ⟨message, got, Or.inr ⟨list, reply, Outcome.value?_eq_some.1 built, rfl⟩⟩

/-- **A 200 prints a direct reply.** A request on the video room that is answered with 200 was
answered by Janus on the temporary connection, with something other than an `ack`. -/
theorem served_directly (run : (machine lib sha host maxSessions).Run es s) {i : Nat}
    {request : HttpRequest} {response : HttpResponse}
    (found : s.service.inFlight[i]? = some ⟨request, .done (.ok response)⟩)
    (endpoint : request.AsksJanus) (accepted : response.result = .ok) :
    ∃ past outgoing body message,
      pastOf i (history lib sha host maxSessions es) = past ++ [sent outgoing (some body)] ∧
      ResponseMessage.parseJson lib body = .ok message ∧ message.eventType ≠ "ack" ∧
      Prints lib request message response.body := by
  obtain ⟨fs, matched, same⟩ := service_history run
  have concluded := Service.concludes_of_run matched found
  rw [← same] at concluded
  rcases concluded with ⟨-, rfl⟩ | ⟨-, -, rfl⟩
  · cases judged : verdict lib request (pastOf i (history lib sha host maxSessions es)) with
    | none =>
      rw [judged] at accepted
      cases accepted
    | some text =>
      obtain ⟨message, got, prints⟩ := prints_of_verdict endpoint judged
      rcases Service.told_cases got with ⟨past, outgoing, body, last, parsed, direct⟩ |
        ⟨past, tx, last⟩
      · exact ⟨past, outgoing, body, message, last, parsed, direct, prints⟩
      · have mem : waited tx (some message) ∈ pastOf i (history lib sha host maxSessions es) := by
          rw [last]
          simp
        obtain ⟨r, mem, -, event⟩ := mem_pastBy.1 mem
        obtain ⟨u, e, t, ⟨before, reached⟩, taken, recorded⟩ := Machine.Run.mem_log run mem
        cases unanswered_step (silent_of_run reached) taken recorded event
  · cases accepted

/-! ## Every wait can end -/

/-- Who is in a call waits for its transaction. -/
def Waits (s : Attached) : Prop :=
  ∀ i j, s.waiting i = some j → ∃ f c, s.service.inFlight[i]? = some f ∧
    s.buffer.calls[j]? = some c ∧ waitsFor f.program = some c.transaction

theorem waitsFor_eq_some {p : Handler HttpResponse} {transaction : String} :
    waitsFor p = some transaction ↔ ∃ k, p = .act (.waitForTransaction transaction) k := by
  constructor
  · intro waits
    cases p with
    | done r => cases waits
    | act o k =>
      cases o with
      | waitForTransaction tx =>
        obtain rfl : tx = transaction := Option.some.inj waits
        exact ⟨k, rfl⟩
      | _ => cases waits
  · rintro ⟨k, rfl⟩
    rfl

/-- Calls keep their transactions. -/
def Keeps (b b' : ResponseBuffer) : Prop :=
  ∀ (j : Nat) (c : WaitCall), b.calls[j]? = some c →
    ∃ c', b'.calls[j]? = some c' ∧ c'.transaction = c.transaction

theorem Keeps.set {b : ResponseBuffer} {j : Nat} {c c' : WaitCall}
    {waiters : String → Option Nat} (call : b.calls[j]? = some c)
    (same : c'.transaction = c.transaction) :
    Keeps b { b with calls := b.calls.set j c', waiters } := by
  intro k d found
  have len : j < b.calls.length := (List.getElem?_eq_some_iff.1 call).1
  by_cases hit : j = k
  · subst hit
    rw [call] at found
    obtain rfl := Option.some.inj found
    exact ⟨c', List.getElem?_set_self len, same⟩
  · exact ⟨d, (List.getElem?_set_ne hit).trans found, rfl⟩

theorem Keeps.register {b b' : ResponseBuffer} {j : Nat} (taken : b.register j = some b') :
    Keeps b b' := by
  obtain ⟨transaction, result, call, ⟨k, -, rfl⟩ | ⟨-, rfl⟩⟩ := ResponseBuffer.register_cases taken
  · exact Keeps.set call rfl
  · exact Keeps.set call rfl

theorem Keeps.timeout {b b' : ResponseBuffer} {j : Nat} (taken : b.timeout j = some b') :
    Keeps b b' := by
  obtain ⟨transaction, result, call, rfl⟩ := ResponseBuffer.timeout_cases taken
  exact Keeps.set call rfl

theorem Keeps.resume {b b' : ResponseBuffer} {j : Nat} (taken : b.resume j = some b') :
    Keeps b b' := by
  obtain ⟨transaction, which, result, call, rfl⟩ := ResponseBuffer.resume_cases taken
  exact Keeps.set call rfl

theorem Waits.buffer (waits : Waits s) {buffer : ResponseBuffer} (keeps : Keeps s.buffer buffer) :
    Waits { s with buffer } := by
  intro i j waiting
  obtain ⟨f, c, found, call, asks⟩ := waits i j waiting
  obtain ⟨c', call', same⟩ := keeps j c call
  exact ⟨f, c', found, call', same ▸ asks⟩

/-- The lookup of a new call leaves the others alone. -/
theorem lookup_calls (b : ResponseBuffer) (transaction : String) :
    ∃ c, (b.lookup transaction).calls = b.calls ++ [c] ∧ c.transaction = transaction := by
  unfold ResponseBuffer.lookup
  split
  · exact ⟨_, rfl, rfl⟩
  · exact ⟨_, rfl, rfl⟩

/-- A step of the service that is no return of a wait keeps those who wait. -/
theorem waiting_kept {service : Service} {e : ServiceEvent} {i : Nat} {f : InFlight}
    {transaction : String} (taken : s.service.step lib sha host e = some service)
    (other : e.isWait = false ∨ ∃ k event now refreshed, e = .perform k event now refreshed ∧ k ≠ i)
    (found : s.service.inFlight[i]? = some f) (asks : waitsFor f.program = some transaction) :
    service.inFlight[i]? = some f := by
  have len : i < s.service.inFlight.length := (List.getElem?_eq_some_iff.1 found).1
  cases e with
  | arrive request =>
    obtain rfl := Option.some.inj taken
    exact (List.getElem?_append_left len).trans found
  | perform k event now refreshed =>
    obtain ⟨g, program, store, here, resumed, -, rfl⟩ := Service.perform_cases taken
    by_cases same : k = i
    · subst same
      rw [found] at here
      obtain rfl := Option.some.inj here
      obtain ⟨cont, act⟩ := waitsFor_eq_some.1 asks
      obtain ⟨cont', act', -⟩ := Prog.resume?_eq_some.1 resumed
      rw [act] at act'
      injection act' with op
      rcases other with quiet | ⟨_, _, _, _, same, different⟩
      · obtain ⟨o, a⟩ := event
        obtain rfl : Op.waitForTransaction transaction = o := op
        cases quiet
      · injection same with same
        exact absurd same.symm different
    · exact (List.getElem?_set_ne same).trans found
  | cleanup nows =>
    obtain ⟨store, -, rfl⟩ := Option.map_eq_some_iff.1 taken
    exact found

theorem waits_of_run (run : (machine lib sha host maxSessions).Run es s) : Waits s := by
  refine Machine.Run.induct (M := machine lib sha host maxSessions) (I := fun _ s => Waits s)
    (fun i j waiting => by cases waiting) ?_ run
  intro es s e t run waits stepped
  have pushed := poll_run (run.snoc stepped)
  have taken : s.step lib sha host e = some t := stepped
  cases e with
  | poll read =>
    obtain ⟨poll, -, rfl⟩ := Option.map_eq_some_iff.1 taken
    have nothing : poll.pushed = [] := pushed
    simpa [nothing, Waits] using waits
  | service e =>
    obtain ⟨other, service, moved, rfl⟩ := service_cases taken
    intro i j waiting
    obtain ⟨f, c, found, call, asks⟩ := waits i j waiting
    exact ⟨f, c, waiting_kept moved (Or.inl other) found asks, call, asks⟩
  | goOn i =>
    obtain ⟨_, _, _, _, service, -, -, -, moved, rfl⟩ := goOn_cases taken
    intro k j waiting
    by_cases same : k = i
    · subst same
      simp at waiting
    · have before : s.waiting k = some j := by simpa [same] using waiting
      obtain ⟨f, c, found, call, asks⟩ := waits k j before
      have kept := waiting_kept moved (Or.inr ⟨_, _, _, _, rfl, fun hit => same hit.symm⟩) found asks
      exact ⟨f, c, kept, call, asks⟩
  | wait i =>
    obtain ⟨f, transaction, found, asks, -, rfl⟩ := wait_cases taken
    obtain ⟨c, calls, tx⟩ := lookup_calls s.buffer transaction
    intro k j waiting
    by_cases same : k = i
    · subst same
      have number : s.buffer.calls.length = j := by simpa using waiting
      refine ⟨f, c, found, ?_, tx ▸ asks⟩
      simp [calls, ← number]
    · have before : s.waiting k = some j := by simpa [same] using waiting
      obtain ⟨g, d, here, call, asks'⟩ := waits k j before
      refine ⟨g, d, here, ?_, asks'⟩
      have len : j < s.buffer.calls.length := (List.getElem?_eq_some_iff.1 call).1
      simpa [calls, List.getElem?_append_left len] using call
  | register j =>
    obtain ⟨buffer, moved, rfl⟩ := Option.map_eq_some_iff.1 taken
    exact waits.buffer (Keeps.register moved)
  | timeout j =>
    obtain ⟨buffer, moved, rfl⟩ := Option.map_eq_some_iff.1 taken
    exact waits.buffer (Keeps.timeout moved)
  | resume j =>
    obtain ⟨buffer, moved, rfl⟩ := Option.map_eq_some_iff.1 taken
    exact waits.buffer (Keeps.resume moved)

/-- The script asks for nothing after a wait. -/
theorem script_not_waited {request : HttpRequest} {past : List Event} {transaction : String}
    {message : Option ResponseMessage} {o : Op} :
    ¬ Script lib sha host request (past ++ [waited transaction message]) o := by
  intro script
  generalize answered : past ++ [waited transaction message] = all at script
  have last := congrArg (fun past => past.getLast?.map fun e : Event => e.1.kind) answered
  simp only [List.getLast?_concat, waited, Option.map_some, Op.kind] at last
  cases script <;> cases last

/-- A handler whose wait returns nothing replies 400 at once. -/
theorem refused_after_wait {es : List ServiceEvent} {s : Service}
    (run : (Lynks.service lib sha host maxSessions).Run es s) {i : Nat} {request : HttpRequest}
    {transaction : String} {k : Option ResponseMessage → Handler HttpResponse}
    (found : s.inFlight[i]? = some ⟨request, .act (.waitForTransaction transaction) k⟩) :
    k none = .done (.ok (Router.badRequest request)) := by
  obtain ⟨script, goesOn⟩ := Service.within_of_run handleRequest_script run found
  have endpoint : request.AsksJanus := by
    generalize pastOf i (Service.history lib sha host maxSessions es) = past at script
    cases script with
    | wait _ _ _ _ _ _ _ _ endpoint => exact endpoint
  have rest := goesOn none
  have unanswered : told lib (pastOf i (Service.history lib sha host maxSessions es) ++
      [waited transaction none]) = none := told_waited _ transaction none
  cases next : k none with
  | act o k' =>
    rw [next] at rest
    exact absurd rest.1 script_not_waited
  | done r =>
    rw [next] at rest
    cases r with
    | ok response =>
      rcases rest with ⟨-, rfl⟩ | ⟨unknown, -, -⟩
      · have refused := verdict_eq_none endpoint unanswered
        exact congrArg (fun text => Prog.done (.ok (Router.reply request text))) refused
      · exact absurd (Or.inr endpoint) unknown
    | throws e =>
      rcases endpoint with path | path
      · rw [rest.1] at path
        exact absurd path (by decide)
      · rw [rest.1] at path
        exact absurd path (by decide)
    | undefined =>
      obtain ⟨-, message, got, -⟩ := rest
      cases unanswered.symm.trans got

theorem run_step (run : (machine lib sha host maxSessions).Run es s) {e : AttachedEvent}
    (taken : s.step lib sha host e = some t) :
    (machine lib sha host maxSessions).Run (es ++ [e]) t := run.snoc taken

/-- The handler can reply 400 within `n` steps. -/
def EndsWithin (lib : Nlohmann) (sha : Sha256) (host : String) (maxSessions : UInt16) (n : Nat)
    (s : Attached) (i : Nat) (request : HttpRequest) : Prop :=
  ∃ fs t, fs.length ≤ n ∧ (machine lib sha host maxSessions).exec s fs = some t ∧
    t.service.inFlight[i]? = some ⟨request, .done (.ok (Router.badRequest request))⟩

theorem EndsWithin.mono {m n i : Nat} {request : HttpRequest} (le : m ≤ n)
    (ends : EndsWithin lib sha host maxSessions m s i request) :
    EndsWithin lib sha host maxSessions n s i request := by
  obtain ⟨fs, t, few, rest⟩ := ends
  exact ⟨fs, t, Nat.le_trans few le, rest⟩

theorem EndsWithin.step {n i : Nat} {e : AttachedEvent} {request : HttpRequest}
    (taken : s.step lib sha host e = some t)
    (ends : EndsWithin lib sha host maxSessions n t i request) :
    EndsWithin lib sha host maxSessions (n + 1) s i request := by
  obtain ⟨fs, u, few, moved, found⟩ := ends
  refine ⟨e :: fs, u, Nat.succ_le_succ few, ?_, found⟩
  change (s.step lib sha host e).bind _ = _
  rw [taken]
  exact moved

section

variable {i j : Nat} {request : HttpRequest} {transaction : String}
  {k : Option ResponseMessage → Handler HttpResponse} {result : Option ResponseMessage}

/-- From the return of the call. -/
theorem ends_returned (run : (machine lib sha host maxSessions).Run es s)
    (found : s.service.inFlight[i]? = some ⟨request, .act (.waitForTransaction transaction) k⟩)
    (waiting : s.waiting i = some j) {value : Option ResponseMessage}
    (call : s.buffer.calls[j]? = some ⟨transaction, .returned value, result⟩) :
    EndsWithin lib sha host maxSessions 1 s i request := by
  have nothing := (silent_of_run run).values _ (List.mem_of_getElem? call) value rfl
  subst nothing
  have refused := refused_after_wait (service_run run) found
  have len : i < s.service.inFlight.length := (List.getElem?_eq_some_iff.1 found).1
  have returns : s.returned i = some (.perform i (waited transaction none) 0 0) := by
    simp [returned, waiting, call]
  have resumed : (Prog.act (.waitForTransaction transaction) k : Handler HttpResponse).resume?
      (waited transaction none) = some (k none) := by simp [Prog.resume?, waited]
  have moved : s.service.step lib sha host (.perform i (waited transaction none) 0 0) =
      some ⟨s.service.store, s.service.inFlight.set i ⟨request, k none⟩⟩ := by
    simp only [Service.step, found, resumed]
    rfl
  have taken : s.step lib sha host (.goOn i) = some { s with
      service := ⟨s.service.store, s.service.inFlight.set i ⟨request, k none⟩⟩
      waiting := Function.update s.waiting i none } := by
    simp only [step, returns, Option.bind_some, moved, Option.map_some]
  apply EndsWithin.step taken
  refine ⟨[], _, Nat.le_refl _, rfl, ?_⟩
  rw [← refused]
  exact List.getElem?_set_self len

/-- From the completion of a timer. -/
theorem ends_completed (run : (machine lib sha host maxSessions).Run es s)
    (found : s.service.inFlight[i]? = some ⟨request, .act (.waitForTransaction transaction) k⟩)
    (waiting : s.waiting i = some j) {which : Which}
    (call : s.buffer.calls[j]? = some ⟨transaction, .suspended (some which), result⟩) :
    EndsWithin lib sha host maxSessions 2 s i request := by
  have len : j < s.buffer.calls.length := (List.getElem?_eq_some_iff.1 call).1
  have taken : s.step lib sha host (.resume j) = some { s with buffer := { s.buffer with
      waiters := Function.update s.buffer.waiters transaction none
      calls := s.buffer.calls.set j
        ⟨transaction, .returned (if which = .signal then result else none), result⟩ } } := by
    simp only [step, ResponseBuffer.resume, call, Option.map_some]
  apply EndsWithin.step taken
  apply ends_returned (run_step run taken) found waiting
  exact List.getElem?_set_self len

/-- From the wait on both timers. -/
theorem ends_suspended (run : (machine lib sha host maxSessions).Run es s)
    (found : s.service.inFlight[i]? = some ⟨request, .act (.waitForTransaction transaction) k⟩)
    (waiting : s.waiting i = some j)
    (call : s.buffer.calls[j]? = some ⟨transaction, .suspended none, result⟩) :
    EndsWithin lib sha host maxSessions 3 s i request := by
  have len : j < s.buffer.calls.length := (List.getElem?_eq_some_iff.1 call).1
  have taken : s.step lib sha host (.timeout j) = some { s with buffer := { s.buffer with
      calls := s.buffer.calls.set j ⟨transaction, .suspended (some .timeout), result⟩ } } := by
    simp only [step, ResponseBuffer.timeout, call, Option.map_some]
  apply EndsWithin.step taken
  apply ends_completed (run_step run taken) found waiting
  exact List.getElem?_set_self len

/-- From the lookup: the call registers, or finds another waiter. -/
theorem ends_looking (run : (machine lib sha host maxSessions).Run es s)
    (found : s.service.inFlight[i]? = some ⟨request, .act (.waitForTransaction transaction) k⟩)
    (waiting : s.waiting i = some j)
    (call : s.buffer.calls[j]? = some ⟨transaction, .looking, result⟩) :
    EndsWithin lib sha host maxSessions 4 s i request := by
  have len : j < s.buffer.calls.length := (List.getElem?_eq_some_iff.1 call).1
  cases other : s.buffer.waiters transaction with
  | some _ =>
    have taken : s.step lib sha host (.register j) = some { s with buffer := { s.buffer with
        calls := s.buffer.calls.set j ⟨transaction, .returned none, result⟩ } } := by
      simp only [step, ResponseBuffer.register, call, other, Option.map_some]
    apply EndsWithin.step taken
    apply EndsWithin.mono (by decide : 1 ≤ 3)
    apply ends_returned (run_step run taken) found waiting
    exact List.getElem?_set_self len
  | none =>
    have taken : s.step lib sha host (.register j) = some { s with buffer := { s.buffer with
        calls := s.buffer.calls.set j ⟨transaction, .suspended none, result⟩
        waiters := Function.update s.buffer.waiters transaction (some j) } } := by
      simp only [step, ResponseBuffer.register, call, other, Option.map_some]
    apply EndsWithin.step taken
    apply ends_suspended (run_step run taken) found waiting
    exact List.getElem?_set_self len

end

/-- **Every wait can end, and only with 400.** Whatever has happened, a handler that waits for
the event of an acknowledged request needs at most five steps of its own to reply. -/
theorem wait_can_end (run : (machine lib sha host maxSessions).Run es s) {i : Nat}
    {request : HttpRequest} {transaction : String}
    {k : Option ResponseMessage → Handler HttpResponse}
    (found : s.service.inFlight[i]? = some ⟨request, .act (.waitForTransaction transaction) k⟩) :
    EndsWithin lib sha host maxSessions 5 s i request := by
  cases waiting : s.waiting i with
  | none =>
    have taken : s.step lib sha host (.wait i) = some { s with
        buffer := s.buffer.lookup transaction
        waiting := Function.update s.waiting i (some s.buffer.calls.length) } := by
      simp only [step, wait, found, Option.bind_some, waitsFor, waiting]
    have empty : ResponseBuffer.tryPopLocked transaction s.buffer.messages = none := by
      rw [(silent_of_run run).messages]
      rfl
    have fresh : (s.buffer.lookup transaction).calls[s.buffer.calls.length]? =
        some ⟨transaction, .looking, none⟩ := by simp [ResponseBuffer.lookup, empty]
    apply EndsWithin.step taken
    exact ends_looking (run_step run taken) found (Function.update_self _ _ _) fresh
  | some j =>
    obtain ⟨f, ⟨tx, stage, result⟩, here, call, asks⟩ := waits_of_run run i j waiting
    rw [found] at here
    obtain rfl := Option.some.inj here
    obtain rfl : transaction = tx := Option.some.inj asks
    cases stage with
    | looking => exact (ends_looking run found waiting call).mono (by decide)
    | suspended which =>
      cases which with
      | none => exact (ends_suspended run found waiting call).mono (by decide)
      | some which => exact (ends_completed run found waiting call).mono (by decide)
    | returned value => exact (ends_returned run found waiting call).mono (by decide)

/-! ## A meeting with an ack, and one without -/

open Service (ackLib constantSha)

/-- A login, and a meeting created with its token, to which Janus answers on the temporary
connection. -/
def meetingWith (reply : String) : List AttachedEvent :=
  [.service (.arrive ⟨"/login", 11, none, "login"⟩),
    .service (.perform 0 (queried selectByUsername "alice"
      (some [⟨1, some "alice", some (hash256 constantSha "secret")⟩])) 0 0),
    .service (.perform 0 (issued "alice" (some "a1")) 1000 0),
    .service (.arrive ⟨"/create", 11, some "a1", ""⟩),
    .service (.perform 1 (validated "a1" true) 2000 2001),
    .service (.perform 1 (owned "a1" (some "alice")) 2002 0),
    .service (.perform 1 (queried selectByUsername "alice"
      (some [⟨1, some "alice", some (hash256 constantSha "secret")⟩])) 0 0),
    .service (.perform 1 (located "/janus/1/2") 0 0),
    .service (.perform 1
      (sent (RequestMapper.postRequest .createRoom "room" "janus" "/janus/1/2") (some reply)) 0 0)]

theorem served_directly_meeting :
    ∃ s, (machine ackLib constantSha "janus" 10).Run (meetingWith "room") s ∧
      ∃ message text, message.eventType ≠ "ack" ∧
        Prints ackLib ⟨"/create", 11, some "a1", ""⟩ message text := by
  obtain ⟨s, run, found⟩ : ∃ s, (machine ackLib constantSha "janus" 10).Run (meetingWith "room") s ∧
      s.service.inFlight[1]? = some ⟨⟨"/create", 11, some "a1", ""⟩, .done (.ok
        (Router.succesfulRequest ⟨"/create", 11, some "a1", ""⟩ "room"))⟩ := ⟨_, rfl, rfl⟩
  obtain ⟨-, -, -, message, -, -, direct, prints⟩ :=
    served_directly run found (Or.inl rfl) rfl
  exact ⟨s, run, message, _, direct, prints⟩

theorem wait_can_end_meeting :
    ∃ s, (machine ackLib constantSha "janus" 10).Run (meetingWith "ack") s ∧
      EndsWithin ackLib constantSha "janus" 10 5 s 1 ⟨"/create", 11, some "a1", ""⟩ := by
  obtain ⟨s, k, run, found⟩ : ∃ s k,
      (machine ackLib constantSha "janus" 10).Run (meetingWith "ack") s ∧
      s.service.inFlight[1]? =
        some ⟨⟨"/create", 11, some "a1", ""⟩, .act (.waitForTransaction "test123") k⟩ :=
    ⟨_, _, rfl, rfl⟩
  exact ⟨s, run, wait_can_end run found⟩

/-- The wait of an acknowledged meeting, to its timeout. -/
def waitedOut : List AttachedEvent :=
  meetingWith "ack" ++ [.wait 1, .register 0, .poll (some "room"), .timeout 0, .resume 0, .goOn 1]

theorem waits_return_nothing_waitedOut :
    ∃ s, (machine ackLib constantSha "janus" 10).Run waitedOut s ∧
      ∀ r ∈ history ackLib constantSha "janus" 10 waitedOut, ∀ transaction message,
        r.event = waited transaction message → message = none := by
  obtain ⟨s, run⟩ : ∃ s, (machine ackLib constantSha "janus" 10).Run waitedOut s := ⟨_, rfl⟩
  exact ⟨s, run, waits_return_nothing run⟩

end Attached

end Lynks
