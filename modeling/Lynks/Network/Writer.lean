import Lynks.Network.ConnectionRuns

/-!
# The writer of a connection

Nothing in `send_response` and `write_response` forbids two writes at once, or a write of an
element that is no longer in front: every call starts one more `async_write`, and a completion
pops whatever is in front by then. The model allows both, and the invariant excludes them: the
outstanding writes are exactly the front of `responses` until a write fails (`Intact`), and
none from then on (`Halted`).
-/

namespace Lynks
set_option autoImplicit false

open Lib

/-- The responses of a connection and the writes on its socket. -/
structure Writer (α : Type) where
  responses : List α
  /-- every `async_write` started, each with the element it writes -/
  started : List α
  /-- those of them that have not completed -/
  outstanding : List α
  /-- those that have succeeded -/
  written : List α
  deriving DecidableEq, Repr

inductive WriterEvent (α : Type) where
  /-- the handler that `send_response` posts -/
  | send (a : α)
  /-- the `i`-th outstanding write succeeds -/
  | writeDone (i : Nat)
  /-- the `i`-th outstanding write fails -/
  | writeFail (i : Nat)
  deriving DecidableEq, Repr

namespace Writer

variable {α : Type}

/-- `connection::write_response`; there is no front to write of an empty queue. -/
def writeResponse (s : Writer α) : Writer α :=
  match s.responses with
  | [] => s
  | a :: _ => { s with started := s.started ++ [a], outstanding := s.outstanding ++ [a] }

/-- The handler `connection::send_response` posts. -/
def sendResponse (s : Writer α) (a : α) : Writer α :=
  let isWriting := !s.responses.isEmpty
  let pushed := { s with responses := s.responses ++ [a] }
  if isWriting then pushed else pushed.writeResponse

/-- The write handler on success. -/
def writeDone (s : Writer α) (i : Nat) : Option (Writer α) :=
  match s.outstanding[i]? with
  | none => none
  | some a =>
    let popped := { s with
      outstanding := s.outstanding.eraseIdx i
      written := s.written ++ [a]
      responses := s.responses.tail }
    some (if popped.responses.isEmpty then popped else popped.writeResponse)

/-- The write handler on an error. -/
def writeFail (s : Writer α) (i : Nat) : Option (Writer α) :=
  if i < s.outstanding.length then some { s with outstanding := s.outstanding.eraseIdx i }
  else none

def step (s : Writer α) : WriterEvent α → Option (Writer α)
  | .send a => some (s.sendResponse a)
  | .writeDone i => s.writeDone i
  | .writeFail i => s.writeFail i

/-- The writer, from the accept handler on. -/
def machine (α : Type) : Machine (Writer α) (WriterEvent α) where
  init := { responses := [], started := [], outstanding := [], written := [] }
  step := step

/-- The response an event hands over. -/
def sent : WriterEvent α → List α
  | .send a => [a]
  | _ => []

/-- A write succeeds. -/
def succeeds : WriterEvent α → Bool
  | .writeDone _ => true
  | _ => false

/-- The front of the queue is being written, and nothing else. -/
def Intact (s : Writer α) : Prop := s.outstanding = s.responses.head?.toList

/-- No write is outstanding, and the element whose write failed is still in front. -/
def Halted (s : Writer α) : Prop := s.outstanding = [] ∧ s.responses ≠ []

variable {s t : Writer α}

/-! ## What a step does -/

/-- A response sent to an idle writer is written at once, any other waits. -/
theorem sendResponse_cases (s : Writer α) (a : α) :
    (s.responses = [] ∧ s.sendResponse a = { s with
      responses := [a], started := s.started ++ [a], outstanding := s.outstanding ++ [a] }) ∨
    (s.responses ≠ [] ∧ s.sendResponse a = { s with responses := s.responses ++ [a] }) := by
  cases queue : s.responses with
  | nil => exact Or.inl ⟨rfl, by simp [sendResponse, writeResponse, queue]⟩
  | cons b rest => exact Or.inr ⟨List.cons_ne_nil b rest, by simp [sendResponse, queue]⟩

/-- What is outstanding of an intact writer is the front of its queue. -/
theorem Intact.only (intact : s.Intact) {i : Nat} (inside : i < s.outstanding.length) :
    i = 0 ∧ ∃ a rest, s.responses = a :: rest ∧ s.outstanding = [a] := by
  rw [show s.outstanding = s.responses.head?.toList from intact] at inside ⊢
  cases queue : s.responses with
  | nil => simp [queue] at inside
  | cons a rest =>
    have first : i = 0 := by simpa [queue] using inside
    exact ⟨first, a, rest, rfl, rfl⟩

/-- Its success starts the write of the next. -/
theorem Intact.writeDone_eq (intact : s.Intact) {a : α} {rest : List α}
    (queue : s.responses = a :: rest) : s.writeDone 0 = some { s with
      responses := rest
      started := s.started ++ rest.head?.toList
      outstanding := rest.head?.toList
      written := s.written ++ [a] } := by
  have single : s.outstanding = [a] := by
    rw [show s.outstanding = s.responses.head?.toList from intact, queue]
    rfl
  cases rest <;> simp [writeDone, queue, single, writeResponse]

theorem Intact.writeDone_cases (intact : s.Intact) {i : Nat} (taken : s.writeDone i = some t) :
    ∃ a rest, s.responses = a :: rest ∧ t = { s with
      responses := rest
      started := s.started ++ rest.head?.toList
      outstanding := rest.head?.toList
      written := s.written ++ [a] } := by
  have inside : i < s.outstanding.length := by
    by_contra beyond
    simp [writeDone, List.getElem?_eq_none (Nat.le_of_not_lt beyond)] at taken
  obtain ⟨rfl, a, rest, queue, -⟩ := intact.only inside
  rw [intact.writeDone_eq queue] at taken
  exact ⟨a, rest, queue, (Option.some.inj taken).symm⟩

theorem writeFail_cases {i : Nat} (taken : s.writeFail i = some t) :
    i < s.outstanding.length ∧ t = { s with outstanding := s.outstanding.eraseIdx i } := by
  obtain ⟨inside, moved⟩ := Option.ite_none_right_eq_some.1 taken
  exact ⟨inside, (Option.some.inj moved).symm⟩

/-- Its failure leaves it in front, and nothing outstanding. -/
theorem Intact.writeFail (intact : s.Intact) {i : Nat} (taken : s.writeFail i = some t) :
    t.Halted := by
  obtain ⟨inside, rfl⟩ := writeFail_cases taken
  obtain ⟨rfl, a, rest, queue, single⟩ := intact.only inside
  exact ⟨by simp [single], by simp [queue]⟩

theorem Intact.step {e : WriterEvent α} (intact : s.Intact) (taken : s.step e = some t) :
    t.Intact ∨ (∃ i, e = .writeFail i) ∧ t.Halted := by
  cases e with
  | send a =>
    obtain rfl := Option.some.inj taken
    left
    unfold Intact at intact ⊢
    rcases sendResponse_cases s a with ⟨queue, started⟩ | ⟨queue, waits⟩
    · rw [started, intact, queue]
      rfl
    · rw [waits, intact]
      cases front : s.responses with
      | nil => exact absurd front queue
      | cons b rest => rfl
  | writeDone i =>
    obtain ⟨a, rest, queue, rfl⟩ := intact.writeDone_cases taken
    exact Or.inl rfl
  | writeFail i => exact Or.inr ⟨⟨i, rfl⟩, intact.writeFail taken⟩

/-- A writer that has halted only queues what it is given. -/
theorem Halted.step {e : WriterEvent α} (halted : s.Halted) (taken : s.step e = some t) :
    ∃ a, e = .send a ∧ t = { s with responses := s.responses ++ [a] } := by
  obtain ⟨idle, waiting⟩ := halted
  cases e with
  | send a =>
    obtain rfl := Option.some.inj taken
    rcases sendResponse_cases s a with ⟨queue, -⟩ | ⟨-, waits⟩
    · exact absurd queue waiting
    · exact ⟨a, rfl, waits⟩
  | writeDone i => simp [Writer.step, writeDone, idle] at taken
  | writeFail i => simp [Writer.step, writeFail, idle] at taken

theorem halted_append (halted : s.Halted) (a : α) :
    Halted { s with responses := s.responses ++ [a] } := ⟨halted.1, by simp⟩

/-! ## Runs -/

/-- Until a write fails the writer is intact, and afterwards it has halted. -/
theorem intact_or_halted {es : List (WriterEvent α)} (run : (machine α).Run es s) :
    s.Intact ∨ (∃ i, .writeFail i ∈ es) ∧ s.Halted := by
  refine Machine.Run.induct (M := machine α) (I := fun es s =>
    s.Intact ∨ (∃ i, .writeFail i ∈ es) ∧ s.Halted) (Or.inl rfl) ?_ run
  intro es s e t _ ih taken
  rcases ih with intact | ⟨⟨i, mem⟩, halted⟩
  · rcases intact.step taken with intact | ⟨⟨i, failed⟩, halted⟩
    · exact Or.inl intact
    · exact Or.inr ⟨⟨i, by simp [failed]⟩, halted⟩
  · obtain ⟨a, -, rfl⟩ := halted.step taken
    exact Or.inr ⟨⟨i, List.mem_append_left _ mem⟩, halted_append halted a⟩

/-- Nothing sent is lost, repeated or overtaken. -/
theorem written_append_responses {es : List (WriterEvent α)} (run : (machine α).Run es s) :
    s.written ++ s.responses = es.flatMap sent := by
  refine Machine.Run.induct (M := machine α) (I := fun es s =>
    s.written ++ s.responses = es.flatMap sent) rfl ?_ run
  intro es s e t run ih taken
  rw [List.flatMap_append, ← ih]
  rcases intact_or_halted run with intact | ⟨-, halted⟩
  · cases e with
    | send a =>
      obtain rfl := Option.some.inj taken
      rcases sendResponse_cases s a with ⟨queue, started⟩ | ⟨-, waits⟩
      · simp [started, queue, sent]
      · simp [waits, sent]
    | writeDone i =>
      obtain ⟨a, rest, queue, rfl⟩ := intact.writeDone_cases taken
      simp [queue, sent]
    | writeFail i =>
      obtain ⟨-, rfl⟩ := writeFail_cases taken
      simp [sent]
  · obtain ⟨a, rfl, rfl⟩ := halted.step taken
    simp [sent]

/-- Every write that succeeds has written one response. -/
theorem written_length {es : List (WriterEvent α)} (run : (machine α).Run es s) :
    s.written.length = (es.filter succeeds).length := by
  refine Machine.Run.induct (M := machine α) (I := fun es s =>
    s.written.length = (es.filter succeeds).length) rfl ?_ run
  intro es s e t run ih taken
  rw [List.filter_append, List.length_append, ← ih]
  rcases intact_or_halted run with intact | ⟨-, halted⟩
  · cases e with
    | send a =>
      obtain rfl := Option.some.inj taken
      rcases sendResponse_cases s a with ⟨-, started⟩ | ⟨-, waits⟩
      · rw [started]
        rfl
      · rw [waits]
        rfl
    | writeDone i =>
      obtain ⟨a, rest, -, rfl⟩ := intact.writeDone_cases taken
      rw [List.length_append]
      rfl
    | writeFail i =>
      obtain ⟨-, rfl⟩ := writeFail_cases taken
      rfl
  · obtain ⟨a, rfl, rfl⟩ := halted.step taken
    rfl

/-- Until a write fails, the writes started are those that have succeeded and the one outstanding,
in this order. -/
theorem started_of_run {es : List (WriterEvent α)} (run : (machine α).Run es s) :
    (∀ i, .writeFail i ∉ es) → s.started = s.written ++ s.outstanding := by
  refine Machine.Run.induct (M := machine α) (I := fun es s =>
    (∀ i, .writeFail i ∉ es) → s.started = s.written ++ s.outstanding) (fun _ => rfl) ?_ run
  intro es s e t run ih taken unfailed
  have before : ∀ i, .writeFail i ∉ es := fun i mem => unfailed i (List.mem_append_left _ mem)
  have started := ih before
  have intact : s.Intact := by
    rcases intact_or_halted run with intact | ⟨⟨i, failed⟩, -⟩
    · exact intact
    · exact absurd failed (before i)
  cases e with
  | send a =>
    obtain rfl := Option.some.inj taken
    rcases sendResponse_cases s a with ⟨-, writes⟩ | ⟨-, waits⟩
    · simp [writes, started]
    · simp [waits, started]
  | writeDone i =>
    have inside : i < s.outstanding.length := by
      by_contra beyond
      have none : s.outstanding[i]? = none := List.getElem?_eq_none (Nat.le_of_not_lt beyond)
      have moved : s.writeDone i = some t := taken
      simp [writeDone, none] at moved
    obtain ⟨-, a, rest, queue, single⟩ := intact.only inside
    obtain ⟨a', rest', queue', rfl⟩ := intact.writeDone_cases taken
    obtain ⟨rfl, rfl⟩ := List.cons.inj (queue.symm.trans queue')
    simp [started, single]
  | writeFail i => exact absurd (by simp) (unfailed i)

/-- A writer that has halted starts no write, whatever happens. -/
theorem Halted.exec {es : List (WriterEvent α)} (halted : s.Halted)
    (run : (machine α).exec s es = some t) : t.started = s.started := by
  have kept : t.Halted ∧ t.started = s.started := by
    apply Machine.exec_invariant (I := fun u => u.Halted ∧ u.started = s.started) _ _ run
    · rintro u e v ⟨halted, same⟩ taken
      obtain ⟨a, -, rfl⟩ := halted.step taken
      exact ⟨halted_append halted a, same⟩
    · exact ⟨halted, rfl⟩
  exact kept.2

/-- **One write at a time, in the order of the responses, and none after a failure.** Each success
has written one response; until a write fails those written and those waiting are the ones sent. -/
theorem one_write_at_a_time {es : List (WriterEvent α)} (run : (machine α).Run es s) :
    s.outstanding.length ≤ 1 ∧ s.written.length = (es.filter succeeds).length ∧
    ((∀ i, .writeFail i ∉ es) → s.outstanding = s.responses.head?.toList ∧
      s.started = s.written ++ s.outstanding ∧ s.written ++ s.responses = es.flatMap sent) ∧
    ∀ before i after u, es = before ++ .writeFail i :: after → (machine α).Run before u →
      s.started = u.started := by
  refine ⟨?_, written_length run, fun unfailed => ?_, ?_⟩
  · rcases intact_or_halted run with intact | ⟨-, halted⟩
    · rw [show s.outstanding = s.responses.head?.toList from intact]
      cases s.responses.head? <;> simp
    · rw [halted.1]
      exact Nat.zero_le 1
  · refine ⟨?_, started_of_run run unfailed, written_append_responses run⟩
    rcases intact_or_halted run with intact | ⟨⟨i, failed⟩, -⟩
    · exact intact
    · exact absurd failed (unfailed i)
  · rintro before i after u rfl run'
    have later : (machine α).exec u (.writeFail i :: after) = some s := by
      rw [Machine.Run, Machine.exec_append, run'] at run
      exact run
    obtain ⟨v, failed, rest⟩ := Option.bind_eq_some_iff.1 later
    have halted : v.Halted := by
      rcases intact_or_halted run' with intact | ⟨-, halted⟩
      · exact intact.writeFail failed
      · obtain ⟨a, impossible, -⟩ := halted.step (e := .writeFail i) failed
        cases impossible
    have same : v.started = u.started := by
      obtain ⟨-, rfl⟩ := writeFail_cases failed
      rfl
    rw [halted.exec rest, same]

/-- Two responses, of which the first has been written. -/
def succeeding : List (WriterEvent Nat) := [.send 1, .send 2, .writeDone 0]

/-- The second fails to be written, and a third is sent. -/
def failing : List (WriterEvent Nat) := succeeding ++ [.writeFail 0, .send 3]

theorem one_write_at_a_time_failing : ∃ s u : Writer Nat, (machine Nat).Run failing s ∧
    (machine Nat).Run succeeding u ∧ s.outstanding.length ≤ 1 ∧ s.started = u.started ∧
    u.started = u.written ++ u.outstanding ∧ u.written ++ u.responses = [1, 2] ∧
    u.written.length = 1 := by
  obtain ⟨s, run⟩ : ∃ s, (machine Nat).Run failing s := ⟨_, rfl⟩
  obtain ⟨u, run'⟩ : ∃ u, (machine Nat).Run succeeding u := ⟨_, rfl⟩
  obtain ⟨few, -, -, none⟩ := one_write_at_a_time run
  obtain ⟨-, once, unfailed, -⟩ := one_write_at_a_time run'
  obtain ⟨-, started, order⟩ := unfailed (by simp [succeeding])
  exact ⟨s, u, run, run', few, none _ 0 [.send 3] u rfl run', started, order, once⟩

/-! ## The writer in the server -/

/-- What a handler of the connection is to its writer. -/
def handler : ConnectionEvent → List (WriterEvent Answer)
  | .send a => [.send a]
  | .writeDone => [.writeDone 0]
  | .writeFail => [.writeFail 0]
  | _ => []

/-- The writer of a connection, whose pending write is its one outstanding write. -/
structure Within (c : Connection) (w : Writer Answer) : Prop where
  responses : w.responses = c.responses
  written : w.written = c.written
  outstanding : w.outstanding = [] ↔ c.writing = .idle
  settled : w.Intact ∨ w.Halted

/-- A write outstanding on the socket is the writer's write of its front. -/
theorem Within.intact {c : Connection} {w : Writer Answer} (within : Within c w)
    (busy : c.writing ≠ .idle) : w.Intact := by
  rcases within.settled with intact | ⟨idle, -⟩
  · exact intact
  · exact absurd (within.outstanding.1 idle) busy

theorem Within.sendResponse {c : Connection} {w : Writer Answer} (within : Within c w)
    (a : Answer) : Within (c.sendResponse a) (w.sendResponse a) := by
  have settled : (w.sendResponse a).Intact ∨ (w.sendResponse a).Halted := by
    rcases within.settled with intact | halted
    · have taken : w.step (.send a) = some (w.sendResponse a) := rfl
      exact (intact.step taken).imp_right fun failed => failed.2
    · rcases sendResponse_cases w a with ⟨queue, -⟩ | ⟨-, waits⟩
      · exact absurd queue halted.2
      · exact Or.inr (waits ▸ halted_append halted a)
  rcases sendResponse_cases w a with ⟨queue, started⟩ | ⟨queue, waits⟩
  · have empty : c.responses = [] := within.responses ▸ queue
    have here : c.sendResponse a =
        { c with responses := [a], writing := .started c.socketOpen } := by
      simp [Connection.sendResponse, Connection.writeResponse, empty]
    refine ⟨?_, ?_, ?_, settled⟩
    · rw [started, here]
    · rw [started, here]
      exact within.written
    · rw [started, here]
      simp
  · have waiting : c.responses ≠ [] := within.responses ▸ queue
    have here : c.sendResponse a = { c with responses := c.responses ++ [a] } := by
      simp [Connection.sendResponse, waiting]
    refine ⟨?_, ?_, ?_, settled⟩
    · rw [waits, here, ← within.responses]
    · rw [waits, here]
      exact within.written
    · rw [waits, here]
      exact within.outstanding

theorem Within.writeDone {c : Connection} {w : Writer Answer} (within : Within c w)
    (busy : c.writing ≠ .idle) :
    ∃ v, w.writeDone 0 = some v ∧ Within c.writeDone v := by
  have intact : w.Intact := within.intact busy
  have inside : 0 < w.outstanding.length := by
    apply List.length_pos_iff.2
    exact fun idle => busy (within.outstanding.1 idle)
  obtain ⟨-, a, rest, queue, -⟩ := intact.only inside
  have queue' : c.responses = a :: rest := within.responses ▸ queue
  refine ⟨_, intact.writeDone_eq queue, ?_, ?_, ?_, Or.inl rfl⟩
  · exact (Connection.responses_writeDone queue').symm
  · cases rest <;> simp [Connection.writeDone, Connection.writeResponse, queue', within.written]
  · cases rest <;> simp [Connection.writeDone, Connection.writeResponse, queue']

theorem Within.writeFailed {c : Connection} {w : Writer Answer} (within : Within c w)
    (busy : c.writing ≠ .idle) :
    ∃ v, w.writeFail 0 = some v ∧ Within c.writeFailed v := by
  have inside : 0 < w.outstanding.length := by
    apply List.length_pos_iff.2
    exact fun idle => busy (within.outstanding.1 idle)
  have taken : w.writeFail 0 = some { w with outstanding := w.outstanding.eraseIdx 0 } :=
    if_pos inside
  have halted := (within.intact busy).writeFail taken
  exact ⟨_, taken, within.responses, within.written,
    ⟨fun _ => rfl, fun _ => halted.1⟩, Or.inr halted⟩

/-- Each handler of the connection is a step of its writer, or none. -/
theorem Within.step {c d : Connection} {w : Writer Answer} {e : ConnectionEvent}
    (within : Within c w) (taken : c.step e = some d) :
    ∃ v, (machine Answer).exec w (handler e) = some v ∧ Within d v := by
  have once {we : WriterEvent Answer} {v : Writer Answer} (moved : w.step we = some v) :
      (machine Answer).exec w [we] = some v := by
    rw [Machine.exec, show (machine Answer).step w we = some v from moved]
    rfl
  rcases Connection.step_cases taken with
    ⟨rfl, -, rfl⟩ | ⟨rfl, -, rfl⟩ | ⟨a, rfl, rfl⟩ | ⟨rfl, busy, rfl⟩ | ⟨rfl, busy, rfl⟩
  · exact ⟨w, rfl, { within with }⟩
  · exact ⟨w, rfl, { within with }⟩
  · exact ⟨w.sendResponse a, rfl, within.sendResponse a⟩
  · obtain ⟨v, moved, within⟩ := within.writeDone (by simp [busy])
    exact ⟨v, once moved, within⟩
  · obtain ⟨v, moved, within⟩ := within.writeFailed busy
    exact ⟨v, once moved, within⟩

/-- **Every connection of the server writes as one writer does.** -/
theorem writer_run {es : List ServerEvent} {s : Server} (run : server.Run es s) (client : Nat) :
    ∃ w, (machine Answer).Run ((server.log (Server.touches client) es).flatMap handler) w ∧
      Within (s.view client) w := by
  obtain ⟨w, alone, within⟩ := (Server.connection_run run client).simulate
    (N := machine Answer) (R := Within) (k := fun _ e => handler e)
    ⟨rfl, rfl, by simp [machine, connection, Connection.accepted, Connection.connectToClient,
      Connection.readRequest], Or.inl rfl⟩
    fun c e d w within taken => within.step taken
  rw [(Server.connection_run run client).log_events] at alone
  exact ⟨w, alone, within⟩

end Writer

end Lynks
