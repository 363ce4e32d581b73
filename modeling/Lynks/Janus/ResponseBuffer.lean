import Mathlib.Logic.Function.Basic
import Lynks.Lib.Machine
import Lynks.Janus.ResponseMessage

/-!
# `response_buffer`

The buffer between the long poll and the calls waiting for an event: the messages nobody
waits for yet, the waiters registered by transaction, and every call of
`wait_for_transaction` with how far it has got. A call is known by its number in `calls`,
which also stands for the `shared_ptr` to its waiter.

`strand` is the serialisation the header promises: each `push` handler and each stretch of
`wait_for_transaction` between two suspension points is one step. `racing` takes a call's
lookup and its registration as two steps, as when the code after `dispatch` runs off the
strand. Each `strand` run is a `racing` run (`strand_run_racing`).
-/

namespace Lynks.Janus
set_option autoImplicit false

open Lib

/-- `which.index()`: the timer that completed first. -/
inductive Which where
  | signal
  | timeout
  deriving DecidableEq, Repr

/-- How far a call of `wait_for_transaction` has got. -/
inductive Stage where
  /-- `try_pop_locked` has found nothing -/
  | looking
  /-- at the `co_await` on both timers; `which` is fixed when the first one completes -/
  | suspended (which : Option Which)
  | returned (value : Option ResponseMessage)
  deriving DecidableEq, Repr

/-- A call of `wait_for_transaction`, with `new_waiter->result`. -/
structure WaitCall where
  transaction : String
  stage : Stage
  result : Option ResponseMessage
  deriving DecidableEq, Repr

/-- `response_buffer` and the calls made on it. -/
structure ResponseBuffer where
  messages : List ResponseMessage
  waiters : String → Option Nat
  calls : List WaitCall

namespace ResponseBuffer

def empty : ResponseBuffer := { messages := [], waiters := fun _ => none, calls := [] }

/-- `response_buffer::try_pop_locked`: the first message of the transaction, and the rest. -/
def tryPopLocked (transaction : String) :
    List ResponseMessage → Option (ResponseMessage × List ResponseMessage)
  | [] => none
  | m :: ms =>
    if m.transaction = transaction then some (m, ms)
    else (tryPopLocked transaction ms).map fun out => (out.1, m :: out.2)

end ResponseBuffer

/-- What `push` does to a waiter: store the result and cancel the signal, which completes it
unless the timeout has completed first. -/
def WaitCall.deliver (c : WaitCall) (m : ResponseMessage) : WaitCall :=
  { c with
    result := some m
    stage := match c.stage with
      | .suspended none => .suspended (some .signal)
      | stage => stage }

namespace ResponseBuffer

/-- The handler `response_buffer::push` dispatches. -/
def push (s : ResponseBuffer) (m : ResponseMessage) : ResponseBuffer :=
  match s.waiters m.transaction with
  | some i =>
    { s with
      calls := s.calls.modify i (·.deliver m)
      waiters := Function.update s.waiters m.transaction none }
  | none => { s with messages := s.messages ++ [m] }

/-- A new call looks into the buffer, and returns what it finds. -/
def lookup (s : ResponseBuffer) (transaction : String) : ResponseBuffer :=
  match tryPopLocked transaction s.messages with
  | some (m, rest) =>
    { s with messages := rest, calls := s.calls ++ [⟨transaction, .returned (some m), none⟩] }
  | none => { s with calls := s.calls ++ [⟨transaction, .looking, none⟩] }

/-- `waiters.emplace`: a call that found nothing registers and suspends, or gives up when the
transaction has a waiter. -/
def register (s : ResponseBuffer) (i : Nat) : Option ResponseBuffer :=
  match s.calls[i]? with
  | some ⟨transaction, .looking, result⟩ =>
    match s.waiters transaction with
    | some _ => some { s with calls := s.calls.set i ⟨transaction, .returned none, result⟩ }
    | none =>
      some { s with
        calls := s.calls.set i ⟨transaction, .suspended none, result⟩
        waiters := Function.update s.waiters transaction (some i) }
  | _ => none

/-- The timeout timer of a suspended call completes first. -/
def timeout (s : ResponseBuffer) (i : Nat) : Option ResponseBuffer :=
  match s.calls[i]? with
  | some ⟨transaction, .suspended none, result⟩ =>
    some { s with calls := s.calls.set i ⟨transaction, .suspended (some .timeout), result⟩ }
  | _ => none

/-- A call resumes: it erases the registration under its transaction, whoever's it is, and
returns its result if the signal completed first. -/
def resume (s : ResponseBuffer) (i : Nat) : Option ResponseBuffer :=
  match s.calls[i]? with
  | some ⟨transaction, .suspended (some which), result⟩ =>
    some { s with
      waiters := Function.update s.waiters transaction none
      calls := s.calls.set i
        ⟨transaction, .returned (if which = .signal then result else none), result⟩ }
  | _ => none

/-- The first stretch of `response_buffer::wait_for_transaction`. -/
def waitForTransaction (s : ResponseBuffer) (transaction : String) : Option ResponseBuffer :=
  match tryPopLocked transaction s.messages with
  | some _ => some (s.lookup transaction)
  | none => (s.lookup transaction).register s.calls.length

/-- The steps under the strand. -/
inductive StrandEvent where
  | push (m : ResponseMessage)
  | wait (transaction : String)
  | timeout (i : Nat)
  | resume (i : Nat)
  deriving DecidableEq, Repr

/-- The steps when a call's lookup and registration are not one. -/
inductive RacingEvent where
  | push (m : ResponseMessage)
  | lookup (transaction : String)
  | register (i : Nat)
  | timeout (i : Nat)
  | resume (i : Nat)
  deriving DecidableEq, Repr

def strand : Machine ResponseBuffer StrandEvent where
  init := empty
  step s
    | .push m => some (s.push m)
    | .wait transaction => s.waitForTransaction transaction
    | .timeout i => s.timeout i
    | .resume i => s.resume i

def racing : Machine ResponseBuffer RacingEvent where
  init := empty
  step s
    | .push m => some (s.push m)
    | .lookup transaction => some (s.lookup transaction)
    | .register i => s.register i
    | .timeout i => s.timeout i
    | .resume i => s.resume i

/-- The steps a serialised step is made of. -/
def unserialised (s : ResponseBuffer) : StrandEvent → List RacingEvent
  | .push m => [.push m]
  | .wait transaction =>
    match tryPopLocked transaction s.messages with
    | some _ => [.lookup transaction]
    | none => [.lookup transaction, .register s.calls.length]
  | .timeout i => [.timeout i]
  | .resume i => [.resume i]

theorem strand_step_racing {s t : ResponseBuffer} {e : StrandEvent}
    (taken : strand.step s e = some t) : racing.exec s (unserialised s e) = some t := by
  cases e with
  | push m => exact taken
  | wait transaction =>
    simp only [strand, waitForTransaction] at taken
    cases found : tryPopLocked transaction s.messages with
    | some out => simpa [unserialised, found, Machine.exec, racing] using taken
    | none => simpa [unserialised, found, Machine.exec, racing] using taken
  | timeout i => simpa [unserialised, Machine.exec, racing, strand] using taken
  | resume i => simpa [unserialised, Machine.exec, racing, strand] using taken

/-- Serialisation only removes interleavings. -/
theorem strand_run_racing {es : List StrandEvent} {s : ResponseBuffer} (run : strand.Run es s) :
    racing.Run (strand.log unserialised es) s := by
  obtain ⟨t, run', rfl⟩ := Machine.Run.simulate (M := strand) (N := racing) (R := Eq) rfl
    (by
      rintro s e t _ rfl taken
      exact ⟨t, strand_step_racing taken, rfl⟩) run
  exact run'

/-! ## What the operations do -/

variable {s t : ResponseBuffer}

theorem tryPopLocked_none {transaction : String} {ms : List ResponseMessage} :
    tryPopLocked transaction ms = none ↔ ∀ m ∈ ms, m.transaction ≠ transaction := by
  induction ms with
  | nil => simp [tryPopLocked]
  | cons m ms ih =>
    by_cases same : m.transaction = transaction <;> simp [tryPopLocked, same, ih]

theorem tryPopLocked_some {transaction : String} {ms rest : List ResponseMessage}
    {m : ResponseMessage} (found : tryPopLocked transaction ms = some (m, rest)) :
    ∃ before after, ms = before ++ m :: after ∧ rest = before ++ after ∧
      m.transaction = transaction ∧ ∀ m' ∈ before, m'.transaction ≠ transaction := by
  induction ms generalizing rest with
  | nil => cases found
  | cons m' ms ih =>
    by_cases same : m'.transaction = transaction
    · simp only [tryPopLocked, same, if_true, Option.some.injEq, Prod.mk.injEq] at found
      obtain ⟨rfl, rfl⟩ := found
      exact ⟨[], ms, rfl, rfl, same, by simp⟩
    · simp only [tryPopLocked, same, if_false, Option.map_eq_some_iff] at found
      obtain ⟨⟨out, rest'⟩, inner, pair⟩ := found
      obtain ⟨rfl, rfl⟩ := Prod.mk.inj pair
      obtain ⟨before, after, rfl, rfl, hit, first⟩ := ih inner
      refine ⟨m' :: before, after, rfl, rfl, hit, ?_⟩
      intro m mem
      rcases List.mem_cons.1 mem with rfl | mem
      · exact same
      · exact first m mem

theorem push_delivered {m : ResponseMessage} {i : Nat} {c : WaitCall}
    (waiting : s.waiters m.transaction = some i) (call : s.calls[i]? = some c) :
    s.push m = { s with
      calls := s.calls.set i (c.deliver m)
      waiters := Function.update s.waiters m.transaction none } := by
  simp [push, waiting, List.modify_eq_set_getElem?, call]

theorem push_buffered {m : ResponseMessage} (nobody : s.waiters m.transaction = none) :
    s.push m = { s with messages := s.messages ++ [m] } := by
  simp [push, nobody]

theorem register_cases {i : Nat} (taken : s.register i = some t) :
    ∃ transaction result, s.calls[i]? = some ⟨transaction, .looking, result⟩ ∧
      ((∃ j, s.waiters transaction = some j ∧
        t = { s with calls := s.calls.set i ⟨transaction, .returned none, result⟩ }) ∨
      (s.waiters transaction = none ∧ t = { s with
        calls := s.calls.set i ⟨transaction, .suspended none, result⟩
        waiters := Function.update s.waiters transaction (some i) })) := by
  unfold register at taken
  split at taken
  · rename_i transaction result call
    refine ⟨transaction, result, call, ?_⟩
    split at taken
    · rename_i j waiting
      exact Or.inl ⟨j, waiting, (Option.some.inj taken).symm⟩
    · rename_i nobody
      exact Or.inr ⟨nobody, (Option.some.inj taken).symm⟩
  · cases taken

theorem timeout_cases {i : Nat} (taken : s.timeout i = some t) :
    ∃ transaction result, s.calls[i]? = some ⟨transaction, .suspended none, result⟩ ∧
      t = { s with
        calls := s.calls.set i ⟨transaction, .suspended (some .timeout), result⟩ } := by
  unfold timeout at taken
  split at taken
  · rename_i transaction result call
    exact ⟨transaction, result, call, (Option.some.inj taken).symm⟩
  · cases taken

theorem resume_cases {i : Nat} (taken : s.resume i = some t) :
    ∃ transaction which result, s.calls[i]? = some ⟨transaction, .suspended (some which), result⟩ ∧
      t = { s with
        waiters := Function.update s.waiters transaction none
        calls := s.calls.set i
          ⟨transaction, .returned (if which = .signal then result else none), result⟩ } := by
  unfold resume at taken
  split at taken
  · rename_i transaction which result call
    exact ⟨transaction, which, result, call, (Option.some.inj taken).symm⟩
  · cases taken

/-- The three ends of the first stretch of a call: it pops a message, finds another waiter, or
suspends. -/
theorem wait_cases {transaction : String} (taken : s.waitForTransaction transaction = some t) :
    (∃ m rest, tryPopLocked transaction s.messages = some (m, rest) ∧ t = { s with
      messages := rest, calls := s.calls ++ [⟨transaction, .returned (some m), none⟩] }) ∨
    (tryPopLocked transaction s.messages = none ∧
      ((∃ j, s.waiters transaction = some j ∧
        t = { s with calls := s.calls ++ [⟨transaction, .returned none, none⟩] }) ∨
      (s.waiters transaction = none ∧ t = { s with
        calls := s.calls ++ [⟨transaction, .suspended none, none⟩]
        waiters := Function.update s.waiters transaction (some s.calls.length) }))) := by
  unfold waitForTransaction at taken
  cases found : tryPopLocked transaction s.messages with
  | some out =>
    refine Or.inl ⟨out.1, out.2, rfl, ?_⟩
    simpa [found, lookup, eq_comm] using taken
  | none =>
    refine Or.inr ⟨rfl, ?_⟩
    simp only [found, lookup] at taken
    obtain ⟨tx, result, call, ends⟩ := register_cases taken
    simp only [List.getElem?_append_right (Nat.le_refl _), Nat.sub_self,
      List.getElem?_cons_zero, Option.some.injEq, WaitCall.mk.injEq] at call
    obtain ⟨rfl, -, rfl⟩ := call
    simpa using ends

end ResponseBuffer

end Lynks.Janus
