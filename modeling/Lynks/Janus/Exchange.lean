import Lynks.Janus.Buffer.Invariant
import Lynks.Janus.Messages

/-!
# Requests, acks and late events

Any number of `create_video_meeting` and `list_participants` calls over one response buffer.
Janus answers a request on its temporary connection, or sends an `ack` there and the answer
as an event, pushed into the buffer at any later time. An `Exchange` is one call with the
answer Janus produces for it; whatever Janus decides later is decided when the request is
sent, without loss of generality.

The two message builders use one constant transaction, so the buffer cannot tell whose event
it holds. `ownAnswers_iff` is the exact condition under which no call gets another's answer.
-/

namespace Lynks.Janus
set_option autoImplicit false

open Lib ResponseBuffer

variable (lib : Nlohmann)

/-- The calls of `janus_repository` on the video room. -/
inductive RepositoryCall where
  | createVideoMeeting
  | listParticipants (body : String)
  deriving DecidableEq, Repr

/-- The transaction its message builder puts into the request; `none` when it throws. -/
def RepositoryCall.transaction : RepositoryCall → Option String
  | createVideoMeeting => some CreateRoomRequest.new.transaction
  | listParticipants body => (ListParticipantsRequest.new lib body).value?.map (·.transaction)

/-- Where `send_request` stands. -/
inductive ClientStage where
  | sent
  /-- in the numbered call of `wait_for_transaction` -/
  | waiting (call : Nat)
  | returned (value : Option ResponseMessage)
  deriving DecidableEq, Repr

/-- A request, the answer Janus produces for it, and whether it comes as an event. -/
structure Exchange where
  transaction : String
  answer : ResponseMessage
  deferred : Bool
  pushed : Bool
  client : ClientStage
  deriving DecidableEq, Repr

/-- What the temporary connection may return: the answer, or an ack. -/
def Exchange.replies (x : Exchange) (msg : ResponseMessage) : Bool :=
  if x.deferred then msg.eventType = "ack" ∧ msg.transaction = x.transaction else msg = x.answer

structure Exchanges where
  buffer : ResponseBuffer
  exchanges : List Exchange

inductive ExchangeEvent where
  /-- a call sends its request; Janus is going to answer it with `answer` -/
  | send (call : RepositoryCall) (answer : ResponseMessage) (deferred : Bool)
  | reply (i : Nat) (msg : ResponseMessage)
  /-- the temporary connection fails, or its reply does not parse -/
  | fail (i : Nat)
  /-- the event comes in on the long poll -/
  | event (i : Nat)
  | register (j : Nat)
  | timeout (j : Nat)
  | resume (j : Nat)
  deriving DecidableEq, Repr

namespace Exchanges

/-- `janus::send_request` on the message it has parsed: after an ack the call waits. -/
def received (s : Exchanges) (i : Nat) (x : Exchange) (msg : ResponseMessage) : Exchanges :=
  if msg.eventType = "ack" then
    { buffer := s.buffer.lookup msg.transaction
      exchanges := s.exchanges.set i { x with client := .waiting s.buffer.calls.length } }
  else { s with exchanges := s.exchanges.set i { x with client := .returned (some msg) } }

def step (s : Exchanges) : ExchangeEvent → Option Exchanges
  | .send call answer deferred =>
    match call.transaction lib with
    | some transaction =>
      -- Janus echoes the transaction
      if answer.transaction = transaction ∧ answer.eventType ≠ "ack" then
        some { s with
          exchanges := s.exchanges ++ [⟨transaction, answer, deferred, false, .sent⟩] }
      else none
    | none => none
  | .reply i msg =>
    match s.exchanges[i]? with
    | some x =>
      if x.client = .sent ∧ x.replies msg = true then some (s.received i x msg) else none
    | none => none
  | .fail i =>
    match s.exchanges[i]? with
    | some x =>
      if x.client = .sent then
        some { s with exchanges := s.exchanges.set i { x with client := .returned none } }
      else none
    | none => none
  | .event i =>
    match s.exchanges[i]? with
    | some x =>
      if x.deferred = true ∧ x.pushed = false then
        some { buffer := s.buffer.push x.answer
               exchanges := s.exchanges.set i { x with pushed := true } }
      else none
    | none => none
  | .register j => (s.buffer.register j).map fun buffer => { s with buffer }
  | .timeout j => (s.buffer.timeout j).map fun buffer => { s with buffer }
  | .resume j => (s.buffer.resume j).map fun buffer => { s with buffer }

end Exchanges

/-- All calls and the buffer, in any interleaving. -/
def janusCalls : Machine Exchanges ExchangeEvent where
  init := { buffer := .empty, exchanges := [] }
  step := Exchanges.step lib

/-! ## What a call is going to return -/

/-- The message a call has returned or is going to return. -/
def WaitCall.due (c : WaitCall) : Option ResponseMessage :=
  match c.stage with
  | .suspended (some .signal) => c.result
  | .returned value => value
  | _ => none

/-- The message the numbered call returns, once that is settled. -/
def ResponseBuffer.due (s : ResponseBuffer) (j : Nat) : Option ResponseMessage :=
  s.calls[j]?.bind WaitCall.due

/-- The message an exchange returns, once that is settled. -/
def Exchange.due (x : Exchange) (s : ResponseBuffer) : Option ResponseMessage :=
  match x.client with
  | .sent => none
  | .waiting j => s.due j
  | .returned value => value

/-- The message an exchange has returned. -/
def Exchange.result (x : Exchange) (s : ResponseBuffer) : Option ResponseMessage :=
  match x.client with
  | .sent => none
  | .waiting j =>
    match s.calls[j]? with
    | some ⟨_, .returned value, _⟩ => value
    | _ => none
  | .returned value => value

namespace Exchanges

/-- Every call that has returned a message, returned the answer to its own request. -/
def OwnAnswers (s : Exchanges) : Prop :=
  ∀ x ∈ s.exchanges, ∀ m, x.result s.buffer = some m → m = x.answer

/-- The step gives no call a message that answers another: after an ack the oldest buffered
event of the transaction, if there is one, is the call's own; an event that comes in while a
call waits in time is that call's own. -/
def takesOwn (s : Exchanges) : ExchangeEvent → Bool
  | .reply i msg =>
    s.exchanges[i]?.all fun x => msg.eventType ≠ "ack" ||
      (tryPopLocked msg.transaction s.buffer.messages).all fun out => out.1 = x.answer
  | .event i =>
    s.exchanges[i]?.all fun x =>
      (s.buffer.waiters x.answer.transaction).all fun j =>
        (s.buffer.calls[j]?.any fun c => c.stage = .suspended (some .timeout)) ||
          s.exchanges.all fun y => y.client ≠ .waiting j || x.answer = y.answer
  | _ => true

end Exchanges

namespace ResponseBuffer

variable {s t : ResponseBuffer}

theorem due_set {i j : Nat} {c c' : WaitCall} {ms : List ResponseMessage}
    {ws : String → Option Nat} (call : s.calls[i]? = some c) (same : c'.due = c.due) :
    ResponseBuffer.due ⟨ms, ws, s.calls.set i c'⟩ j = s.due j := by
  have len : i < s.calls.length := (List.getElem?_eq_some_iff.1 call).1
  by_cases hit : i = j
  · subst hit
    simp [ResponseBuffer.due, List.getElem?_set_self len, call, same]
  · simp [ResponseBuffer.due, List.getElem?_set_ne hit]

theorem due_register {i : Nat} (taken : s.register i = some t) (j : Nat) : t.due j = s.due j := by
  obtain ⟨tx, result, call, ⟨_, -, rfl⟩ | ⟨-, rfl⟩⟩ := register_cases taken
  · exact due_set call rfl
  · exact due_set call rfl

theorem due_timeout {i : Nat} (taken : s.timeout i = some t) (j : Nat) : t.due j = s.due j := by
  obtain ⟨tx, result, call, rfl⟩ := timeout_cases taken
  exact due_set call rfl

theorem due_resume {i : Nat} (taken : s.resume i = some t) (j : Nat) : t.due j = s.due j := by
  obtain ⟨tx, which, result, call, rfl⟩ := resume_cases taken
  apply due_set call
  cases which with
  | signal => rfl
  | timeout => rfl

/-- A push settles what the waiter returns, unless the waiter's timeout has fired. -/
theorem due_push (sound : s.Sound) (m : ResponseMessage) (j : Nat) :
    (s.push m).due j =
      if s.waiters m.transaction = some j ∧ s.calls[j]?.map WaitCall.stage = some (.suspended none)
      then some m else s.due j := by
  cases waiting : s.waiters m.transaction with
  | none => simp [push_buffered waiting, ResponseBuffer.due]
  | some i =>
    obtain ⟨c, call, -, -, stage⟩ := sound.waiter waiting
    rw [push_delivered waiting call]
    have len : i < s.calls.length := (List.getElem?_eq_some_iff.1 call).1
    by_cases hit : i = j
    · subst hit
      rcases stage with stage | stage <;>
        simp [ResponseBuffer.due, List.getElem?_set_self len, call, WaitCall.due, WaitCall.deliver,
          stage]
    · simp [ResponseBuffer.due, List.getElem?_set_ne hit, hit]

/-- A registered call has nothing due. -/
theorem Sound.due_waiter (sound : s.Sound) {tx : String} {j : Nat}
    (waiting : s.waiters tx = some j) : s.due j = none := by
  obtain ⟨c, call, -, -, stage | stage⟩ := sound.waiter waiting <;>
    simp [ResponseBuffer.due, call, WaitCall.due, stage]

/-- A lookup adds a call, which is due what it popped. -/
theorem due_lookup (tx : String) (j : Nat) :
    (s.lookup tx).due j = if j = s.calls.length then (tryPopLocked tx s.messages).map Prod.fst
      else s.due j := by
  have appended : ∀ (ms : List ResponseMessage) (c : WaitCall),
      ResponseBuffer.due ⟨ms, s.waiters, s.calls ++ [c]⟩ j =
        if j = s.calls.length then c.due else s.due j := by
    intro ms c
    rcases Nat.lt_trichotomy j s.calls.length with less | same | more
    · simp [ResponseBuffer.due, List.getElem?_append_left less, Nat.ne_of_lt less]
    · simp [ResponseBuffer.due, same]
    · have beyond : (s.calls ++ [c]).length ≤ j := by
        rw [List.length_append]
        exact more
      simp [ResponseBuffer.due, List.getElem?_eq_none (Nat.le_of_lt more), Nat.ne_of_gt more,
        List.getElem?_eq_none beyond]
  unfold ResponseBuffer.lookup
  cases found : tryPopLocked tx s.messages with
  | none => exact appended _ _
  | some out => exact appended _ _

theorem calls_length_lookup (tx : String) : (s.lookup tx).calls.length = s.calls.length + 1 := by
  unfold ResponseBuffer.lookup
  cases tryPopLocked tx s.messages <;> simp

/-- Calls are never forgotten. -/
theorem calls_length_le {e : RacingEvent} (taken : racing.step s e = some t) :
    s.calls.length ≤ t.calls.length := by
  cases e with
  | push m =>
    obtain rfl := Option.some.inj taken
    cases waiting : s.waiters m.transaction <;> simp [ResponseBuffer.push, waiting]
  | lookup tx =>
    obtain rfl := Option.some.inj taken
    simp [calls_length_lookup]
  | register i => obtain ⟨_, _, -, ⟨_, -, rfl⟩ | ⟨-, rfl⟩⟩ := register_cases taken <;> simp
  | timeout i =>
    obtain ⟨_, _, -, rfl⟩ := timeout_cases taken
    simp
  | resume i =>
    obtain ⟨_, _, _, -, rfl⟩ := resume_cases taken
    simp

/-- What is due has been returned, or is one resumption away. -/
theorem due_some {j : Nat} {m : ResponseMessage} (due : s.due j = some m) :
    (∃ tx result, s.calls[j]? = some ⟨tx, .returned (some m), result⟩) ∨
      ∃ tx, s.calls[j]? = some ⟨tx, .suspended (some .signal), some m⟩ := by
  obtain ⟨⟨tx, stage, result⟩, call, due⟩ := Option.bind_eq_some_iff.1 due
  unfold WaitCall.due at due
  split at due
  · rename_i signal
    cases signal
    cases due
    exact Or.inr ⟨tx, call⟩
  · rename_i value returned
    cases returned
    cases due
    exact Or.inl ⟨tx, result, call⟩
  · cases due

end ResponseBuffer

namespace Exchanges

variable {lib} {s t : Exchanges}

/-! ## What the steps do -/

theorem send_cases {call : RepositoryCall} {answer : ResponseMessage} {deferred : Bool}
    (taken : s.step lib (.send call answer deferred) = some t) :
    ∃ transaction, call.transaction lib = some transaction ∧ answer.transaction = transaction ∧
      t = { s with
        exchanges := s.exchanges ++ [⟨transaction, answer, deferred, false, .sent⟩] } := by
  simp only [step] at taken
  split at taken
  · rename_i transaction built
    split at taken
    · rename_i echo
      exact ⟨transaction, built, echo.1, (Option.some.inj taken).symm⟩
    · cases taken
  · cases taken

theorem reply_cases {i : Nat} {msg : ResponseMessage} (taken : s.step lib (.reply i msg) = some t) :
    ∃ x, s.exchanges[i]? = some x ∧ x.client = .sent ∧ x.replies msg = true ∧
      t = s.received i x msg := by
  simp only [step] at taken
  split at taken
  · rename_i x found
    split at taken
    · rename_i open_
      exact ⟨x, found, open_.1, open_.2, (Option.some.inj taken).symm⟩
    · cases taken
  · cases taken

theorem fail_cases {i : Nat} (taken : s.step lib (.fail i) = some t) :
    ∃ x, s.exchanges[i]? = some x ∧ x.client = .sent ∧
      t = { s with exchanges := s.exchanges.set i { x with client := .returned none } } := by
  simp only [step] at taken
  split at taken
  · rename_i x found
    split at taken
    · rename_i open_
      exact ⟨x, found, open_, (Option.some.inj taken).symm⟩
    · cases taken
  · cases taken

theorem event_cases {i : Nat} (taken : s.step lib (.event i) = some t) :
    ∃ x, s.exchanges[i]? = some x ∧
      t = { buffer := s.buffer.push x.answer
            exchanges := s.exchanges.set i { x with pushed := true } } := by
  simp only [step] at taken
  split at taken
  · rename_i x found
    split at taken
    · exact ⟨x, found, (Option.some.inj taken).symm⟩
    · cases taken
  · cases taken

/-- The steps inside `wait_for_transaction` change the buffer and settle nothing. -/
theorem buffer_cases {e : ExchangeEvent} (taken : s.step lib e = some t)
    (inner : (∃ j, e = .register j) ∨ (∃ j, e = .timeout j) ∨ ∃ j, e = .resume j) :
    ∃ b, (∃ f, racing.step s.buffer f = some b) ∧ (∀ j, b.due j = s.buffer.due j) ∧
      t = { s with buffer := b } := by
  rcases inner with ⟨j, rfl⟩ | ⟨j, rfl⟩ | ⟨j, rfl⟩
  · obtain ⟨b, moved, rfl⟩ := Option.map_eq_some_iff.1 taken
    exact ⟨b, ⟨.register j, moved⟩, due_register moved, rfl⟩
  · obtain ⟨b, moved, rfl⟩ := Option.map_eq_some_iff.1 taken
    exact ⟨b, ⟨.timeout j, moved⟩, due_timeout moved, rfl⟩
  · obtain ⟨b, moved, rfl⟩ := Option.map_eq_some_iff.1 taken
    exact ⟨b, ⟨.resume j, moved⟩, due_resume moved, rfl⟩

/-! ## The buffer and the calls on it agree -/

/-- Every waiting call has its place in the buffer. -/
structure Linked (s : Exchanges) : Prop where
  sound : s.buffer.Sound
  waiting : ∀ x ∈ s.exchanges, ∀ j, x.client = .waiting j → j < s.buffer.calls.length

/-- A step of the buffer forgets no call. -/
theorem Linked.moved (linked : s.Linked) {b : ResponseBuffer} {f : RacingEvent}
    (moved : racing.step s.buffer f = some b) : Linked { s with buffer := b } where
  sound := linked.sound.racing_step moved
  waiting := by
    intro x mem j waiting
    have known : j < s.buffer.calls.length := linked.waiting x mem j waiting
    exact Nat.lt_of_lt_of_le known (calls_length_le moved)

theorem Linked.step (linked : s.Linked) {e : ExchangeEvent} (taken : s.step lib e = some t) :
    t.Linked := by
  cases e with
  | send call answer deferred =>
    obtain ⟨tx, -, -, rfl⟩ := send_cases taken
    refine ⟨linked.sound, ?_⟩
    apply forall_append linked.waiting
    intro j waiting
    cases waiting
  | reply i msg =>
    obtain ⟨x, found, sent, -, rfl⟩ := reply_cases taken
    unfold received
    split
    · have looked : Linked { s with buffer := s.buffer.lookup msg.transaction } :=
        linked.moved (f := .lookup msg.transaction) rfl
      refine ⟨looked.sound, forall_set looked.waiting fun j waiting => ?_⟩
      obtain rfl := ClientStage.waiting.inj waiting
      rw [calls_length_lookup]
      exact Nat.lt_succ_self _
    · refine ⟨linked.sound, ?_⟩
      apply forall_set linked.waiting
      intro j waiting
      cases waiting
  | fail i =>
    obtain ⟨x, found, sent, rfl⟩ := fail_cases taken
    refine ⟨linked.sound, ?_⟩
    apply forall_set linked.waiting
    intro j waiting
    cases waiting
  | event i =>
    obtain ⟨x, found, rfl⟩ := event_cases taken
    have pushed : Linked { s with buffer := s.buffer.push x.answer } :=
      linked.moved (f := .push x.answer) rfl
    have known := pushed.waiting x (List.mem_of_getElem? found)
    exact ⟨pushed.sound, forall_set pushed.waiting known⟩
  | register j =>
    obtain ⟨b, ⟨f, step⟩, -, rfl⟩ := buffer_cases taken (by simp)
    exact linked.moved step
  | timeout j =>
    obtain ⟨b, ⟨f, step⟩, -, rfl⟩ := buffer_cases taken (by simp)
    exact linked.moved step
  | resume j =>
    obtain ⟨b, ⟨f, step⟩, -, rfl⟩ := buffer_cases taken (by simp)
    exact linked.moved step

/-! ## What one step settles -/

/-- The message a step settles for the exchange `x`, numbered `k`. -/
def settles (s : Exchanges) (x : Exchange) (k : Nat) : ExchangeEvent → Option ResponseMessage
  | .reply i msg =>
    if i = k then
      if msg.eventType = "ack" then
        (tryPopLocked msg.transaction s.buffer.messages).map Prod.fst
      else some msg
    else none
  | .event i =>
    s.exchanges[i]?.bind fun z =>
      match x.client with
      | .waiting j =>
        if s.buffer.waiters z.answer.transaction = some j ∧
            s.buffer.calls[j]?.map WaitCall.stage = some (.suspended none) then some z.answer
        else none
      | _ => none
  | _ => none

theorem due_congr {b b' : ResponseBuffer} {x : Exchange}
    (same : ∀ j, x.client = .waiting j → b'.due j = b.due j) : x.due b' = x.due b := by
  unfold Exchange.due
  cases client : x.client with
  | sent => rfl
  | waiting j => exact same j client
  | returned value => rfl

/-- After a push, what is due is what was due, or the message for its waiter. -/
theorem due_event (linked : s.Linked) {i : Nat} {z : Exchange} (found : s.exchanges[i]? = some z)
    (x : Exchange) (k : Nat) :
    x.due (s.buffer.push z.answer) = (x.due s.buffer).or (settles s x k (.event i)) := by
  simp only [settles, found, Option.bind_some, Exchange.due]
  cases client : x.client with
  | sent => rfl
  | waiting j =>
    simp only [due_push linked.sound]
    split
    · rename_i target
      rw [linked.sound.due_waiter target.1]
      rfl
    · simp
  | returned value => simp

/-- The exchange replied to is due what the reply settles. -/
theorem due_received_self {k : Nat} {x : Exchange} (at_k : s.exchanges[k]? = some x)
    (sent : x.client = .sent) (msg : ResponseMessage) :
    ∃ y, (s.received k x msg).exchanges[k]? = some y ∧ y.answer = x.answer ∧
      y.due (s.received k x msg).buffer = (x.due s.buffer).or (settles s x k (.reply k msg)) := by
  have len : k < s.exchanges.length := (List.getElem?_eq_some_iff.1 at_k).1
  have nothing : x.due s.buffer = none := by simp [Exchange.due, sent]
  rw [nothing]
  unfold received
  split
  · rename_i ack
    refine ⟨_, List.getElem?_set_self len, rfl, ?_⟩
    simp [Exchange.due, due_lookup, settles, ack]
  · rename_i direct
    refine ⟨_, List.getElem?_set_self len, rfl, ?_⟩
    simp [Exchange.due, settles, direct]

/-- Every other exchange is due what it was due. -/
theorem due_received_other (linked : s.Linked) {i k : Nat} {x : Exchange} (z : Exchange)
    (msg : ResponseMessage) (at_k : s.exchanges[k]? = some x) (other : i ≠ k) :
    (s.received i z msg).exchanges[k]? = some x ∧
      x.due (s.received i z msg).buffer = x.due s.buffer := by
  have mem : x ∈ s.exchanges := List.mem_of_getElem? at_k
  unfold received
  split
  · refine ⟨(List.getElem?_set_ne other).trans at_k, due_congr fun j waiting => ?_⟩
    rw [due_lookup, if_neg (Nat.ne_of_lt (linked.waiting x mem j waiting))]
  · exact ⟨(List.getElem?_set_ne other).trans at_k, rfl⟩

/-- Each exchange keeps its number and its answer, and is due what was due or what the step
settles. -/
theorem due_step (linked : s.Linked) {e : ExchangeEvent} (taken : s.step lib e = some t)
    {k : Nat} {x : Exchange} (at_k : s.exchanges[k]? = some x) :
    ∃ y, t.exchanges[k]? = some y ∧ y.answer = x.answer ∧
      y.due t.buffer = (x.due s.buffer).or (settles s x k e) := by
  have len : k < s.exchanges.length := (List.getElem?_eq_some_iff.1 at_k).1
  have inner : ∀ {b : ResponseBuffer}, (∀ j, b.due j = s.buffer.due j) → settles s x k e = none →
      t = { s with buffer := b } → ∃ y, t.exchanges[k]? = some y ∧ y.answer = x.answer ∧
        y.due t.buffer = (x.due s.buffer).or (settles s x k e) := by
    rintro b same settled rfl
    have kept : x.due b = x.due s.buffer := due_congr fun j _ => same j
    refine ⟨x, at_k, rfl, ?_⟩
    rw [settled, Option.or_none]
    exact kept
  cases e with
  | send call answer deferred =>
    obtain ⟨tx, -, -, rfl⟩ := send_cases taken
    exact ⟨x, (List.getElem?_append_left len).trans at_k, rfl, by simp [settles]⟩
  | reply i msg =>
    obtain ⟨z, found, sent, -, rfl⟩ := reply_cases taken
    by_cases same : i = k
    · subst same
      obtain rfl := Option.some.inj (at_k.symm.trans found)
      exact due_received_self at_k sent msg
    · have other : settles s x k (.reply i msg) = none := by simp [settles, same]
      obtain ⟨kept, unchanged⟩ := due_received_other linked z msg at_k same
      rw [other, Option.or_none]
      exact ⟨x, kept, rfl, unchanged⟩
  | fail i =>
    obtain ⟨z, found, sent, rfl⟩ := fail_cases taken
    by_cases same : i = k
    · subst same
      obtain rfl := Option.some.inj (at_k.symm.trans found)
      exact ⟨_, List.getElem?_set_self len, rfl, by simp [Exchange.due, sent, settles]⟩
    · exact ⟨x, (List.getElem?_set_ne same).trans at_k, rfl, by simp [settles]⟩
  | event i =>
    obtain ⟨z, found, rfl⟩ := event_cases taken
    by_cases same : i = k
    · subst same
      obtain rfl := Option.some.inj (at_k.symm.trans found)
      exact ⟨_, List.getElem?_set_self len, rfl, due_event linked found x i⟩
    · exact ⟨x, (List.getElem?_set_ne same).trans at_k, rfl, due_event linked found x k⟩
  | register j =>
    obtain ⟨b, -, same, moved⟩ := buffer_cases taken (by simp)
    exact inner same rfl moved
  | timeout j =>
    obtain ⟨b, -, same, moved⟩ := buffer_cases taken (by simp)
    exact inner same rfl moved
  | resume j =>
    obtain ⟨b, -, same, moved⟩ := buffer_cases taken (by simp)
    exact inner same rfl moved

theorem new_exchange {e : ExchangeEvent} (taken : s.step lib e = some t) {k : Nat} {y : Exchange}
    (at_k : t.exchanges[k]? = some y) (fresh : s.exchanges[k]? = none) : y.due t.buffer = none := by
  have set : ∀ {i : Nat} {z : Exchange}, (s.exchanges.set i z)[k]? ≠ some y := by
    intro i z found
    have len := (List.getElem?_eq_some_iff.1 found).1
    rw [List.length_set] at len
    exact absurd (List.getElem?_eq_none_iff.1 fresh) (Nat.not_le_of_lt len)
  cases e with
  | send call answer deferred =>
    obtain ⟨tx, -, -, rfl⟩ := send_cases taken
    rw [List.getElem?_append_right (List.getElem?_eq_none_iff.1 fresh)] at at_k
    rw [List.mem_singleton.1 (List.mem_of_getElem? at_k)]
    rfl
  | reply i msg =>
    obtain ⟨z, -, -, -, rfl⟩ := reply_cases taken
    unfold received at at_k
    split at at_k <;> exact absurd at_k set
  | fail i =>
    obtain ⟨z, -, -, rfl⟩ := fail_cases taken
    exact absurd at_k set
  | event i =>
    obtain ⟨z, -, rfl⟩ := event_cases taken
    exact absurd at_k set
  | register j =>
    obtain ⟨b, -, -, rfl⟩ := buffer_cases taken (by simp)
    rw [fresh] at at_k
    cases at_k
  | timeout j =>
    obtain ⟨b, -, -, rfl⟩ := buffer_cases taken (by simp)
    rw [fresh] at at_k
    cases at_k
  | resume j =>
    obtain ⟨b, -, -, rfl⟩ := buffer_cases taken (by simp)
    rw [fresh] at at_k
    cases at_k

/-! ## The guard -/

/-- A guarded step settles a call's own answer. -/
theorem settles_own {e : ExchangeEvent} (taken : s.step lib e = some t)
    (own : takesOwn s e = true) {k : Nat} {x : Exchange} (at_k : s.exchanges[k]? = some x)
    {m : ResponseMessage} (settled : settles s x k e = some m) : m = x.answer := by
  cases e with
  | reply i msg =>
    simp only [settles, Option.ite_none_right_eq_some] at settled
    obtain ⟨rfl, settled⟩ := settled
    obtain ⟨x', found, -, replies, -⟩ := reply_cases taken
    obtain rfl := Option.some.inj (at_k.symm.trans found)
    split at settled
    · rename_i ack
      obtain ⟨out, popped, rfl⟩ := Option.map_eq_some_iff.1 settled
      simpa [takesOwn, at_k, ack, popped] using own
    · rename_i direct
      cases settled
      unfold Exchange.replies at replies
      split at replies
      · exact absurd (of_decide_eq_true replies).1 direct
      · exact of_decide_eq_true replies
  | event i =>
    obtain ⟨z, found, settled⟩ := Option.bind_eq_some_iff.1 settled
    split at settled
    · rename_i j client
      obtain ⟨⟨waiting, stage⟩, settled⟩ := Option.ite_none_right_eq_some.1 settled
      obtain rfl := Option.some.inj settled
      obtain ⟨c, call, unfired⟩ := Option.map_eq_some_iff.1 stage
      simp only [takesOwn, found, Option.all_some, waiting, call, Option.any_some, unfired,
        reduceCtorEq, Stage.suspended.injEq, decide_false, Bool.false_or, List.all_eq_true] at own
      simpa [client] using own x (List.mem_of_getElem? at_k)
    · cases settled
  | _ => cases settled

/-- An unguarded step settles another call's answer. -/
theorem settles_other (linked : s.Linked) {e : ExchangeEvent} (taken : s.step lib e = some t)
    (other : ¬ takesOwn s e = true) : ∃ k x m, s.exchanges[k]? = some x ∧
      x.due s.buffer = none ∧ settles s x k e = some m ∧ m ≠ x.answer := by
  cases e with
  | reply i msg =>
    obtain ⟨x, found, sent, -, -⟩ := reply_cases taken
    simp only [takesOwn, found, Option.all_some, Bool.or_eq_true, decide_eq_true_eq, not_or,
      not_not] at other
    obtain ⟨ack, mixed⟩ := other
    cases popped : tryPopLocked msg.transaction s.buffer.messages with
    | none => simp [popped] at mixed
    | some out =>
      refine ⟨i, x, out.1, found, by simp [Exchange.due, sent], by simp [settles, ack, popped], ?_⟩
      simpa [popped] using mixed
  | event i =>
    obtain ⟨z, found, -⟩ := event_cases taken
    cases waiting : s.buffer.waiters z.answer.transaction with
    | none => simp [takesOwn, found, waiting] at other
    | some j =>
      obtain ⟨c, call, -, -, stage⟩ := linked.sound.waiter waiting
      simp only [takesOwn, found, Option.all_some, waiting, call, Option.any_some, Bool.or_eq_true,
        decide_eq_true_eq, not_or, List.all_eq_true, not_forall] at other
      obtain ⟨unfired, y, mem, away, mixed⟩ := other
      obtain ⟨k, at_k⟩ := List.mem_iff_getElem?.1 mem
      have client : y.client = .waiting j := by simpa using away
      have suspended := stage.resolve_right unfired
      refine ⟨k, y, z.answer, at_k, ?_, ?_, mixed⟩
      · simpa [Exchange.due, client] using linked.sound.due_waiter waiting
      · simp [settles, found, client, waiting, call, suspended]
  | _ => exact absurd rfl other

/-! ## Runs -/

/-- Every settled message is the call's own answer. -/
def OwnDue (s : Exchanges) : Prop :=
  ∀ x ∈ s.exchanges, ∀ m, x.due s.buffer = some m → m = x.answer

/-- Some settled message answers another call. -/
def Mixed (s : Exchanges) : Prop :=
  ∃ (k : Nat) (x : Exchange) (m : ResponseMessage),
    s.exchanges[k]? = some x ∧ x.due s.buffer = some m ∧ m ≠ x.answer

theorem OwnDue.step (linked : s.Linked) (own : s.OwnDue) {e : ExchangeEvent}
    (guard : takesOwn s e = true) (taken : s.step lib e = some t) : t.OwnDue := by
  intro y mem m due
  obtain ⟨k, at_k⟩ := List.mem_iff_getElem?.1 mem
  cases before : s.exchanges[k]? with
  | none =>
    rw [new_exchange taken at_k before] at due
    cases due
  | some x =>
    obtain ⟨y', at_k', answer, settled⟩ := due_step linked taken before
    obtain rfl := Option.some.inj (at_k.symm.trans at_k')
    rw [answer]
    rw [settled] at due
    rcases Option.or_eq_some_iff.1 due with due | ⟨-, settled⟩
    · exact own x (List.mem_of_getElem? before) m due
    · exact settles_own taken guard before settled

/-- What an exchange has returned was due. -/
theorem due_of_result {b : ResponseBuffer} {x : Exchange} {m : ResponseMessage}
    (result : x.result b = some m) : x.due b = some m := by
  unfold Exchange.result at result
  unfold Exchange.due
  cases client : x.client with
  | sent => simp [client] at result
  | waiting j =>
    simp only [client] at result
    split at result
    · rename_i tx value result' call
      simpa [ResponseBuffer.due, call, WaitCall.due] using result
    · cases result
  | returned value => simpa [client] using result

/-- What has been settled is not undone. -/
theorem Mixed.step (linked : s.Linked) (mixed : s.Mixed) {e : ExchangeEvent}
    (taken : s.step lib e = some t) : t.Mixed := by
  obtain ⟨k, x, m, at_k, due, wrong⟩ := mixed
  obtain ⟨y, at_k', answer, due'⟩ := due_step linked taken at_k
  have kept : y.due t.buffer = some m := by rw [due', due, Option.some_or]
  exact ⟨k, y, m, at_k', kept, answer ▸ wrong⟩

theorem linked_of_run {es : List ExchangeEvent} (run : (janusCalls lib).Run es s) : s.Linked :=
  run.invariant ⟨Sound.empty, by simp [janusCalls]⟩ fun _ _ _ linked taken => linked.step taken

/-- An unguarded step mixes the answers up. -/
theorem mixed_of_other (linked : s.Linked) {e : ExchangeEvent} (other : ¬ takesOwn s e = true)
    (taken : s.step lib e = some t) : t.Mixed := by
  obtain ⟨k, x, m, at_k, nothing, settled, wrong⟩ := settles_other linked taken other
  obtain ⟨y, at_k', answer, due⟩ := due_step linked taken at_k
  have given : y.due t.buffer = some m := by rw [due, nothing, Option.none_or, settled]
  exact ⟨k, y, m, at_k', given, answer ▸ wrong⟩

/-- Letting the call resume shows the answer it was given. -/
theorem Mixed.shown {es : List ExchangeEvent} (run : (janusCalls lib).Run es s) (mixed : s.Mixed) :
    ∃ fs t, (∀ e ∈ fs, ∃ j, e = .resume j) ∧ (janusCalls lib).Run (es ++ fs) t ∧
      ¬ t.OwnAnswers := by
  obtain ⟨k, x, m, at_k, due, wrong⟩ := mixed
  have mem : x ∈ s.exchanges := List.mem_of_getElem? at_k
  have now : x.result s.buffer = some m → ∃ fs t, (∀ e ∈ fs, ∃ j, e = .resume j) ∧
      (janusCalls lib).Run (es ++ fs) t ∧ ¬ t.OwnAnswers := by
    intro result
    refine ⟨[], s, by simp, ?_, fun own => wrong (own x mem m result)⟩
    rw [List.append_nil]
    exact run
  unfold Exchange.due at due
  split at due
  · cases due
  · rename_i j client
    rcases due_some due with ⟨tx, result, call⟩ | ⟨tx, call⟩
    · exact now (by simp [Exchange.result, client, call])
    · have len : j < s.buffer.calls.length := (List.getElem?_eq_some_iff.1 call).1
      have taken : s.step lib (.resume j) = some { s with buffer := { s.buffer with
          waiters := Function.update s.buffer.waiters tx none
          calls := s.buffer.calls.set j ⟨tx, .returned (some m), some m⟩ } } := by
        simp [Exchanges.step, ResponseBuffer.resume, call]
      refine ⟨[.resume j], _, by simp, run.snoc taken, fun own => ?_⟩
      apply wrong
      apply own x mem m
      simp [Exchange.result, client, List.getElem?_set_self len]
  · rename_i value client
    apply now
    simpa [Exchange.result, client] using due

/-- **No call gets another's answer, in a run and all its resumptions, exactly when every ack
finds no older event than its own and every event finds no other call waiting.** -/
theorem ownAnswers_iff {es : List ExchangeEvent} (run : (janusCalls lib).Run es s) :
    (∀ fs, (∀ e ∈ fs, ∃ j, e = ExchangeEvent.resume j) →
        (janusCalls lib).Always OwnAnswers (es ++ fs)) ↔
      (janusCalls lib).Guarded (fun s e => takesOwn s e = true) es := by
  refine Machine.always_extended_iff_guarded (I := fun s => Linked s ∧ OwnDue s) (B := Mixed)
    ⟨⟨Sound.empty, by simp [janusCalls]⟩, by simp [OwnDue, janusCalls]⟩
    ?next ?use ?free ?brings ?keeps ?shown run
  case next =>
    rintro s e t ⟨linked, own⟩ guard taken
    exact ⟨linked.step taken, own.step linked guard taken⟩
  case use =>
    rintro s ⟨-, own⟩ x mem m result
    exact own x mem m (due_of_result result)
  case free =>
    rintro e ⟨j, rfl⟩ s
    rfl
  case brings =>
    rintro s e t ⟨es, run⟩ other taken
    exact mixed_of_other (linked_of_run run) other taken
  case keeps =>
    rintro s e t ⟨es, run⟩ mixed taken
    exact mixed.step (linked_of_run run) taken
  case shown =>
    intro es s run mixed
    exact mixed.shown run

/-- A JSON library under which every body names room 1. -/
def roomLib : Nlohmann where
  parse? _ := some (.object [("room_id", .unsigned 1)])
  dump _ := ""
  castOverflow _ := 0

def created : ResponseMessage := ⟨"event", "test123", "created"⟩
def participants : ResponseMessage := ⟨"event", "test123", "participants"⟩
def ack : ResponseMessage := ⟨"ack", "test123", ""⟩

/-- The answer to a call that has timed out comes in before the next call's ack. -/
def lateCreation : List ExchangeEvent :=
  [.send .createVideoMeeting created true, .reply 0 ack, .register 0, .timeout 0, .resume 0,
    .send (.listParticipants "") participants true, .event 0, .reply 1 ack]

/-- The second call returns the first one's answer. -/
theorem answers_mixed : ∃ s, (janusCalls roomLib).Run lateCreation s ∧
    s.exchanges.map (fun x => (x.answer, x.result s.buffer)) =
      [(created, none), (participants, some created)] ∧ ¬ s.OwnAnswers := by
  refine ⟨_, rfl, rfl, fun own => ?_⟩
  have same := own ⟨"test123", participants, true, false, .waiting 1⟩
    (List.mem_of_getElem? (i := 1) rfl) created rfl
  exact absurd same (by decide)

/-- Each event comes in while its own call waits. -/
def promptAnswers : List ExchangeEvent :=
  [.send .createVideoMeeting created true, .reply 0 ack, .register 0, .event 0, .resume 0,
    .send (.listParticipants "") participants true, .event 1, .reply 1 ack]

theorem ownAnswers_iff_prompt : (janusCalls roomLib).Always OwnAnswers (promptAnswers ++ []) := by
  have ran : ∃ s, (janusCalls roomLib).Run promptAnswers s := ⟨_, rfl⟩
  obtain ⟨s, run⟩ := ran
  exact (ownAnswers_iff run).2 (Machine.guarded_of_check (by decide)) [] (by simp)

end Exchanges

end Lynks.Janus
