import Lynks.Lib.Machine
import Lynks.Janus.Messages
import Lynks.Janus.ResponseMessage

/-!
# The long-poll loop

`long_poll_task` reads one HTTP response after another from the long-poll socket and hands
events to `response_buffer::push`. `read_long_poll_response` tries `keep_alive_message` on a
body first and takes its success for a keep-alive. That constructor accepts every object with
a string `janus`, which is all `response_message` accepts, so the push is never reached
(`pushed_eq_nil`) and every genuine event is lost. What the first parser rejects the second
rejects too, and there nothing catches the exception: it ends the loop (`running_iff`).
-/

namespace Lynks.Janus
set_option autoImplicit false

open Lib

variable (lib : Nlohmann)

/-- `janus::read_long_poll_response` once a body has been read: the messages it pushes. -/
def readLongPollResponse (body : String) : Outcome Exception (List ResponseMessage) :=
  match KeepAliveMessage.new lib body with
  | .ok _ => .ok []
  | .throws _ => do
    let msg ← ResponseMessage.parseJson lib body
    pure [msg]
  | .undefined => .undefined

/-- The loop: what it has pushed, and whether it still runs. An escaping exception ends it. -/
structure LongPoll where
  pushed : List ResponseMessage
  running : Bool

/-- One iteration of `janus::long_poll_task`: a body read, or a read that failed or found the
socket closed. -/
def LongPoll.step (s : LongPoll) (read : Option String) : Option LongPoll :=
  if s.running then
    match read with
    | none => some s
    | some body =>
      match readLongPollResponse lib body with
      | .ok messages => some { s with pushed := s.pushed ++ messages }
      | _ => some { s with running := false }
  else none

/-- `janus::long_poll_task` over the responses read, in order. -/
def longPollTask : Machine LongPoll (Option String) :=
  { init := { pushed := [], running := true }, step := LongPoll.step lib }

/-- The message of a body that is a genuine Janus event: an object whose `janus` is a string
other than `keepalive`, and whose `transaction`, if there, is a string. -/
def genuineEvent (body : String) : Option ResponseMessage := do
  let j ← lib.parse? body
  let eventType ← j.stringField? "janus"
  let transaction ← transactionOf j
  if eventType = "keepalive" then none
  else some { eventType, transaction, body := lib.dump j }

/-- The body is JSON, an object with a string under `janus`. -/
def hasJanus (body : String) : Bool := ((lib.parse? body).bind (Json.stringField? "janus")).isSome

variable {lib}

/-- Whatever the second parser accepts the first has accepted. -/
theorem keepAlive_of_parseJson {s : String} {m : ResponseMessage}
    (accepted : ResponseMessage.parseJson lib s = .ok m) :
    ∃ k, KeepAliveMessage.new lib s = .ok k := by
  obtain ⟨j, parsed, janus, -, -⟩ := ResponseMessage.parseJson_eq_ok.1 accepted
  rcases @KeepAliveMessage.new_cases lib s with ⟨k, _, built, -⟩ | ⟨_, -, none⟩
  · exact ⟨k, built⟩
  · rw [none j parsed] at janus
    cases janus

/-- A body that is read pushes nothing, or throws. -/
theorem readLongPollResponse_ok {body : String} {messages : List ResponseMessage}
    (read : readLongPollResponse lib body = .ok messages) : messages = [] := by
  unfold readLongPollResponse at read
  cases first : KeepAliveMessage.new lib body with
  | ok k =>
    rw [first] at read
    exact (Outcome.ok.inj read).symm
  | throws e =>
    rw [first] at read
    obtain ⟨msg, accepted, -⟩ := Outcome.bind_eq_ok.1 read
    obtain ⟨k, built⟩ := keepAlive_of_parseJson accepted
    rw [first] at built
    cases built
  | undefined =>
    rw [first] at read
    cases read

/-- No run of the loop pushes anything. -/
theorem pushed_eq_nil {reads : List (Option String)} {s : LongPoll}
    (run : (longPollTask lib).Run reads s) : s.pushed = [] := by
  refine Machine.Run.invariant (I := fun s => s.pushed = []) rfl ?_ run
  intro s read t empty taken
  simp only [longPollTask, LongPoll.step, Option.ite_none_right_eq_some] at taken
  obtain ⟨-, taken⟩ := taken
  cases read with
  | none => exact Option.some.inj taken ▸ empty
  | some body =>
    cases outcome : readLongPollResponse lib body with
    | ok messages =>
      simp only [outcome, Option.some.injEq] at taken
      rw [← taken, empty, readLongPollResponse_ok outcome]
      rfl
    | throws e =>
      simp only [outcome, Option.some.injEq] at taken
      exact taken ▸ empty
    | undefined =>
      simp only [outcome, Option.some.injEq] at taken
      exact taken ▸ empty

/-- **What the long poll delivers.** The messages pushed over a run are those of the genuine
events read, in order, exactly when no body read is a genuine event. -/
theorem pushed_eq_events_iff {reads : List (Option String)} {s : LongPoll}
    (run : (longPollTask lib).Run reads s) :
    s.pushed = reads.filterMap (fun read => read.bind (genuineEvent lib)) ↔
      ∀ body, some body ∈ reads → genuineEvent lib body = none := by
  rw [pushed_eq_nil run, eq_comm, List.filterMap_eq_nil_iff]
  constructor
  · intro none body mem
    exact none (some body) mem
  · intro none read mem
    cases read with
    | none => rfl
    | some body => exact none body mem

/-- An event of the video room, as Janus sends it on the long poll. -/
def roomEvent : String :=
  "\x7b\"janus\":\"event\",\"transaction\":\"test123\"\x7d"

/-- A JSON library that reads `roomEvent` and a keep-alive. -/
def roomEventLib : Nlohmann where
  parse? s :=
    if s = roomEvent then
      some (.object [("janus", .string "event"), ("transaction", .string "test123")])
    else if s = "\x7b\"janus\":\"keepalive\"\x7d" then
      some (.object [("janus", .string "keepalive")])
    else none
  dump _ := roomEvent
  castOverflow _ := 0

/-- The event is read, is genuine, and is not pushed. -/
theorem roomEvent_dropped : ∃ s, (longPollTask roomEventLib).Run [some roomEvent] s ∧
    s.pushed ≠ [some roomEvent].filterMap (fun read => read.bind (genuineEvent roomEventLib)) := by
  refine ⟨⟨[], true⟩, rfl, ?_⟩
  decide

/-- Keep-alives alone are handled as they should be. -/
theorem pushed_eq_events_iff_keepalive : ∃ s,
    (longPollTask roomEventLib).Run [some "\x7b\"janus\":\"keepalive\"\x7d", none] s ∧
    (s.pushed = [some "\x7b\"janus\":\"keepalive\"\x7d", none].filterMap
        (fun read => read.bind (genuineEvent roomEventLib)) ↔
      ∀ body, some body ∈ [some "\x7b\"janus\":\"keepalive\"\x7d", none] →
        genuineEvent roomEventLib body = none) := by
  obtain ⟨s, run⟩ : ∃ s, (longPollTask roomEventLib).Run
      [some "\x7b\"janus\":\"keepalive\"\x7d", none] s := ⟨_, rfl⟩
  exact ⟨s, run, pushed_eq_events_iff run⟩

/-! ## Bodies that end the loop -/

/-- The two parsers fail on the same bodies. -/
theorem readLongPollResponse_iff {body : String} :
    (∃ messages, readLongPollResponse lib body = .ok messages) ↔ hasJanus lib body = true := by
  have has : hasJanus lib body = true ↔
      ∃ j janus, lib.parse? body = some j ∧ j.stringField? "janus" = some janus := by
    simp only [hasJanus, Option.isSome_iff_exists, Option.bind_eq_some_iff]
    exact ⟨fun ⟨janus, j, parsed, found⟩ => ⟨j, janus, parsed, found⟩,
      fun ⟨j, janus, parsed, found⟩ => ⟨janus, j, parsed, found⟩⟩
  rw [has]
  rcases @KeepAliveMessage.new_cases lib body with ⟨k, j, built, parsed, janus⟩ | ⟨e, failed, none⟩
  · have quiet : readLongPollResponse lib body = .ok [] := by simp [readLongPollResponse, built]
    exact ⟨fun _ => ⟨j, k.janus, parsed, janus⟩, fun _ => ⟨[], quiet⟩⟩
  · constructor
    · rintro ⟨messages, read⟩
      simp only [readLongPollResponse, failed] at read
      obtain ⟨msg, accepted, -⟩ := Outcome.bind_eq_ok.1 read
      obtain ⟨k, built⟩ := keepAlive_of_parseJson accepted
      rw [failed] at built
      cases built
    · rintro ⟨j, janus, parsed, found⟩
      rw [none j parsed] at found
      cases found

/-- A body ends the loop unless it is read. -/
theorem running_step {s t : LongPoll} {read : Option String} (taken : s.step lib read = some t) :
    s.running = true ∧
      (t.running = true ↔ ∀ body, read = some body → hasJanus lib body = true) := by
  simp only [LongPoll.step, Option.ite_none_right_eq_some] at taken
  obtain ⟨running, taken⟩ := taken
  refine ⟨running, ?_⟩
  cases read with
  | none =>
    obtain rfl := Option.some.inj taken
    simp [running]
  | some body =>
    have one : (∀ b, some body = some b → hasJanus lib b = true) ↔ hasJanus lib body = true := by
      simp
    rw [one, ← readLongPollResponse_iff]
    cases outcome : readLongPollResponse lib body with
    | ok messages =>
      simp only [outcome, Option.some.injEq] at taken
      simp [← taken, running]
    | throws e =>
      simp only [outcome, Option.some.injEq] at taken
      simp [← taken]
    | undefined =>
      simp only [outcome, Option.some.injEq] at taken
      simp [← taken]

/-- **The loop lives on objects with a string `janus`.** `read_long_poll_response` returns
normally on exactly these bodies, and the loop still runs after a run exactly when every body
read was one. -/
theorem running_iff (lib : Nlohmann) :
    (∀ body, (∃ messages, readLongPollResponse lib body = .ok messages) ↔
      hasJanus lib body = true) ∧
    ∀ reads s, (longPollTask lib).Run reads s →
      (s.running = true ↔ ∀ body, some body ∈ reads → hasJanus lib body = true) := by
  refine ⟨fun body => readLongPollResponse_iff, fun reads s run => ?_⟩
  refine Machine.Run.induct (M := longPollTask lib) (I := fun reads s =>
    (s.running = true ↔ ∀ body, some body ∈ reads → hasJanus lib body = true)) ?_ ?_ run
  · simp [longPollTask]
  · intro reads s read t _ ih taken
    obtain ⟨running, lives⟩ := running_step taken
    rw [lives]
    constructor
    · intro now body mem
      rcases List.mem_append.1 mem with earlier | here
      · exact ih.1 running body earlier
      · exact now body (List.mem_singleton.1 here).symm
    · intro all body same
      exact all body (by simp [same])

theorem running_iff_keepalive : ∃ s,
    (longPollTask roomEventLib).Run [some "\x7b\"janus\":\"keepalive\"\x7d", none] s ∧
    s.running = true := by
  obtain ⟨s, run⟩ : ∃ s, (longPollTask roomEventLib).Run
      [some "\x7b\"janus\":\"keepalive\"\x7d", none] s := ⟨_, rfl⟩
  refine ⟨s, run, ((running_iff roomEventLib).2 _ s run).2 fun body mem => ?_⟩
  obtain rfl : body = "\x7b\"janus\":\"keepalive\"\x7d" := by simpa using mem
  decide

/-- A body that is not JSON ends the loop. -/
theorem not_json_ends_loop :
    (∃ s, (longPollTask roomEventLib).Run [some "gone"] s ∧ s.running = false) ∧
    ¬ ∀ lib body, ∃ messages, readLongPollResponse lib body = .ok messages := by
  refine ⟨⟨_, rfl, rfl⟩, fun returns => ?_⟩
  obtain ⟨messages, read⟩ := returns roomEventLib "gone"
  have threw : readLongPollResponse roomEventLib "gone" = .throws .parseError := by decide
  rw [threw] at read
  cases read

end Lynks.Janus
