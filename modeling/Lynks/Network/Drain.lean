import Lynks.Network.Progress
import Lynks.Network.TransportRuns

/-!
# The pool cannot be deadlocked

A handler that waits for a connection of the pool has none (`held_within`), so those that have one
never wait for those that wait. In every reachable state, with all connections in use too, the
handlers can be run one after the other until each has ended, or waits for the Janus context that
`start` has stopped, and every fetch be granted that the database would grant (`pool_drains`): a
holder goes first. It takes each handler at most thirteen operations in all (`transport_length`).
-/

namespace Lynks
set_option autoImplicit false

open Lib Janus Handler Transport

/-- How many operations a call may take. -/
def Op.transports : Op → Nat
  | .sendQuery _ _ => 4
  | .sendTemporary _ => 5
  | _ => 1

/-- The operations whose answers are the session store's. -/
def TransportOp.asksStore : TransportOp → Bool
  | .direct o => o.asksStore
  | _ => false

namespace Transport

variable {lib : Nlohmann} {sha : Sha256} {host : String} {port : UInt16} {maxSessions : UInt16}
  {s : Pool TransportState HttpRequest TransportOp TransportOp.Ans Exception HttpResponse}
  {es : List TransportStep} {stopped : Bool}

/-! ## How long a handler is -/

theorem Steps.length {host port : String} {o : Op} {seg : List TransportEvent} {o' : TransportOp}
    (step : Steps host port o seg o') : seg.length < o.transports := by
  cases step with
  | direct o here => cases o <;> simp [Op.transports]
  | _ => simp [Op.transports]

theorem Returned.length {host port : String} {o : Op} {a : o.Ans} {seg : List TransportEvent}
    (returned : Returned host port o a seg) : seg.length ≤ o.transports := by
  cases o with
  | sendQuery sql param =>
    have queried : Queried sql param a seg := returned
    cases queried <;> simp [Op.transports]
  | sendTemporary request =>
    have exchanged : Exchanged host port request a seg := returned
    cases exchanged <;> simp [Op.transports]
  | _ =>
    rw [show seg = _ from returned]
    exact Nat.le_refl 1

/-- Calls take no more than they may. -/
theorem Calls.length {past' : List TransportEvent} {past : List Event}
    (calls : Calls (impl host port) past' past) :
    past'.length ≤ (past.map (·.1.transports)).sum := by
  induction calls with
  | none => exact Nat.le_refl 0
  | @call before seg past o a earlier left ih =>
    obtain ⟨a', -, returned⟩ := Prog.after_ended (call_wp o) left
    have own := Returned.length returned
    simp only [List.length_append, List.map_append, List.sum_append, List.map_singleton,
      List.sum_singleton]
    omega

/-- The longest script has a query, a message to Janus, and four operations on no socket. -/
theorem Script.transports {request : HttpRequest} {past : List Event} {o : Op}
    (script : Script lib sha host request past o) :
    (past.map (·.1.transports)).sum + o.transports ≤ 13 := by
  cases script <;>
    simp [Op.transports, gateEvents, queried, validated, owned, located, sent]

theorem Within.length {request : HttpRequest} {past : List TransportEvent} {o' : TransportOp}
    (within : Within lib sha host port request past o') : past.length < 13 := by
  obtain ⟨before, seg, earlier, o, rfl, calls, script, step⟩ := within
  have called := Calls.length calls
  have stepped := Steps.length step
  have whole := Script.transports script
  rw [List.length_append]
  omega

/-- No handler performs more than thirteen operations, down to the sockets. -/
theorem transport_length (run : (coroutines lib sha host port maxSessions).machine.Run es s)
    (i : Nat) :
    (Coroutines.pastOf i ((coroutines lib sha host port maxSessions).history es)).length ≤ 13 :=
  Coroutines.pastOf_length_le handler_wp (fun _ _ _ => Within.length) run i

/-! ## Room -/

/-- All but the store answers as given. -/
def AsGiven (answers : (o : TransportOp) → o.Ans) (o : TransportOp) (a : o.Ans) : Prop :=
  o.asksStore = false → a = answers o

/-- What nothing answers once the Janus context has been stopped. -/
def Blocked (stopped : Bool) (o : TransportOp) : Prop := stopped = true ∧ o.awaitsContext = true

/-- The pool has a connection for the handler, which may be the one the handler has. -/
structure RoomFor (stopped : Bool) (i : Nat) (h : List TransportEntry) (shared : TransportState) :
    Prop where
  context : shared.stopped = stopped
  count : shared.borrowed = (holders h).card
  others : ((holders h).erase i).card < maxPoolSize

theorem RoomFor.all {h : List TransportEntry} {shared : TransportState}
    (context : shared.stopped = stopped) (count : shared.borrowed = (holders h).card)
    (free : shared.borrowed < maxPoolSize) (j : Nat) : RoomFor stopped j h shared :=
  ⟨context, count, Nat.lt_of_le_of_lt (Finset.card_erase_le.trans count.ge) free⟩

/-- Before a fetch a handler has no connection, so the pool is not used up. -/
theorem RoomFor.fetch {i : Nat} {h : List TransportEntry} {shared : TransportState}
    {request : HttpRequest} (room : RoomFor stopped i h shared)
    (within : Within lib sha host port request (Coroutines.pastOf i h) .getConnection) :
    shared.borrowed < maxPoolSize := by
  obtain ⟨seg, o, step, holds, -⟩ := held_within within
  have free : i ∉ holders h := by
    rw [mem_holders, holds]
    cases step
    decide
  have others := room.others
  rwa [Finset.erase_eq_of_notMem free, ← room.count] at others

/-- **What a handler asks can be answered as given**, unless it is blocked, if the pool has room
for it, and it still has. -/
theorem RoomFor.answers {i : Nat} {h : List TransportEntry} {shared : TransportState}
    {request : HttpRequest} {o : TransportOp} (room : RoomFor stopped i h shared)
    (within : Within lib sha host port request (Coroutines.pastOf i h) o)
    (answers : (o : TransportOp) → o.Ans) (runs : ¬ Blocked stopped o) :
    ∃ readings a shared', shared.react readings.1 readings.2 ⟨o, a⟩ = some shared' ∧
      AsGiven answers o a ∧
      RoomFor stopped i (h ++ [⟨i, request, readings, ⟨o, a⟩, shared⟩]) shared' := by
  obtain ⟨readings, a, shared', reacted, given⟩ : ∃ (readings : UInt64 × UInt64) (a : o.Ans)
      (shared' : TransportState), shared.after readings.1 readings.2 ⟨o, a⟩ = some shared' ∧
        AsGiven answers o a := by
    cases o with
    | direct o =>
      obtain ⟨a, store, admitted, given⟩ :=
        storeAfter_answers shared.store 0 0 (fun o => answers (.direct o)) o
      exact ⟨(0, 0), a, { shared with store }, by simp [TransportState.after, admitted], given⟩
    | getConnection =>
      have free := room.fetch within
      obtain ⟨shared', reacted⟩ : ∃ shared',
          shared.after 0 0 ⟨.getConnection, answers .getConnection⟩ = some shared' := by
        cases (answers .getConnection : Bool) with
        | true => exact ⟨_, if_pos free⟩
        | false => exact ⟨shared, rfl⟩
      exact ⟨(0, 0), answers .getConnection, shared', reacted, fun _ => rfl⟩
    | _ => exact ⟨(0, 0), answers _, _, rfl, fun _ => rfl⟩
  have admitted : shared.react readings.1 readings.2 ⟨o, a⟩ = some shared' := by
    rw [TransportState.react, if_neg, reacted]
    rw [room.context, Bool.and_eq_true]
    exact runs
  refine ⟨readings, a, shared', admitted, given, ?_, ?_, ?_⟩
  · exact (TransportState.after_stopped reacted).trans room.context
  · exact borrowed_step (x := ⟨i, request, readings, ⟨o, a⟩, shared⟩) room.count within reacted
  · have same : (holders (h ++ [⟨i, request, readings, ⟨o, a⟩, shared⟩])).erase i =
        (holders h).erase i := by
      ext j
      simp only [Finset.mem_erase, mem_holders_snoc]
      exact and_congr_right fun other => by rw [if_neg other]
    exact same ▸ room.others

/-- A call to Janus has no connection of the pool. -/
theorem Steps.unpooled {host port : String} {o : Op} {seg : List TransportEvent} {o' : TransportOp}
    (step : Steps host port o seg o') (awaits : o'.awaitsContext = true) :
    held pooled seg = false := by
  cases step with
  | direct | resolve | connect | write | read => rfl
  | _ => cases awaits

/-- A handler that has ended, or waits for the Janus context, has no connection of the pool. -/
theorem halted_free (run : (coroutines lib sha host port maxSessions).machine.Run es s) {i : Nat}
    {task : Task HttpRequest TransportOp TransportOp.Ans Exception HttpResponse}
    (found : s.tasks[i]? = some task) (halted : task.program.Halted (Blocked stopped)) :
    i ∉ holders ((coroutines lib sha host port maxSessions).history es) := by
  rw [mem_holders]
  obtain ⟨request, program⟩ := task
  cases program with
  | done r =>
    rw [(free_of_ended run found).1]
    decide
  | act o' k =>
    obtain ⟨within, -⟩ : Within lib sha host port request _ o' ∧ _ :=
      (Coroutines.followed_of_run handler_wp run).within i _ found
    obtain ⟨seg, o, step, holds, -⟩ := held_within within
    rw [holds, Steps.unpooled step halted.2]
    decide

/-- A handler that goes no further leaves its room to the others. -/
theorem RoomFor.free (run : (coroutines lib sha host port maxSessions).machine.Run es s) {i : Nat}
    {task : Task HttpRequest TransportOp TransportOp.Ans Exception HttpResponse}
    (found : s.tasks[i]? = some task) (halted : task.program.Halted (Blocked stopped))
    (room : RoomFor stopped i ((coroutines lib sha host port maxSessions).history es) s.shared) :
    s.shared.borrowed < maxPoolSize := by
  have returned := halted_free run found halted
  have others := room.others
  rwa [Finset.erase_eq_of_notMem returned, ← room.count] at others

/-- Who has a connection is one of the handlers. -/
theorem holder_found (run : (coroutines lib sha host port maxSessions).machine.Run es s) {i : Nat}
    (holder : i ∈ holders ((coroutines lib sha host port maxSessions).history es)) :
    ∃ task, s.tasks[i]? = some task := by
  have heard := Finset.mem_of_mem_filter i holder
  obtain ⟨x, mem, rfl⟩ := List.mem_map.1 (List.mem_toFinset.1 heard)
  exact ⟨_, List.getElem?_eq_getElem (Coroutines.task_lt run mem)⟩

/-! ## The end -/

/-- When none goes any further no connection is in use. -/
theorem nothing_in_use (run : (coroutines lib sha host port maxSessions).machine.Run es s)
    (halted : ∀ task ∈ s.tasks, task.program.Halted (Blocked stopped)) :
    s.shared.borrowed = 0 := by
  rw [(borrowed_of_run run).1, Finset.card_eq_zero, Finset.eq_empty_iff_forall_notMem]
  intro i holder
  obtain ⟨task, found⟩ := holder_found run holder
  exact halted_free run found (halted task (List.mem_of_getElem? found)) holder

theorem socket_closed (run : (coroutines lib sha host port maxSessions).machine.Run es s)
    (halted : ∀ task ∈ s.tasks, task.program.Halted (Blocked false)) (i : Nat) : held socket
      (Coroutines.pastOf i ((coroutines lib sha host port maxSessions).history es)) = false := by
  by_cases started : i < s.tasks.length
  · obtain ⟨r, done⟩ := (halted _ (List.getElem_mem started)).ended fun o blocked => by
      cases blocked.1
    have found : s.tasks[i]? = some ⟨s.tasks[i].request, .done r⟩ := by
      rw [List.getElem?_eq_getElem started, ← done]
    exact (free_of_ended run found).2
  · have unheard : ∀ x ∈ (coroutines lib sha host port maxSessions).history es, x.task ≠ i :=
      fun x mem same => started (same ▸ Coroutines.task_lt run mem)
    rw [Coroutines.pastOf_eq_nil unheard]
    rfl

/-- An operation of a handler, with everything but the store answered as given. -/
abbrev Answered (answers : (o : TransportOp) → o.Ans) (e : TransportStep) : Prop :=
  ∃ i, Coroutines.Answering (AsGiven answers) i e

/-- Once the pool has a connection left, all handlers can be run. -/
theorem drains_of_free (run : (coroutines lib sha host port maxSessions).machine.Run es s)
    (answers : (o : TransportOp) → o.Ans) (context : s.shared.stopped = stopped)
    (free : s.shared.borrowed < maxPoolSize) :
    ∃ fs t, (coroutines lib sha host port maxSessions).machine.Run (es ++ fs) t ∧
      (∀ e ∈ fs, Answered answers e) ∧
      t.tasks.map (·.request) = s.tasks.map (·.request) ∧
      (∀ task ∈ t.tasks, task.program.Halted (Blocked stopped)) ∧ t.shared.stopped = stopped := by
  obtain ⟨fs, t, ran, given, same, halted, room⟩ :=
    Coroutines.can_drain (C := coroutines lib sha host port maxSessions) (J := RoomFor stopped)
      handler_wp (fun _ _ _ _ _ room within runs => room.answers within answers runs)
      (fun _ _ _ _ run found halted room =>
        .all room.context room.count (room.free run found halted)) run
      (RoomFor.all context (borrowed_of_run run).1 free)
  exact ⟨fs, t, ran, given, same, halted, (room 0).context⟩

/-- If it has none left, a handler that has one can be run first. -/
theorem frees_of_full (run : (coroutines lib sha host port maxSessions).machine.Run es s)
    (answers : (o : TransportOp) → o.Ans) (context : s.shared.stopped = stopped)
    (full : ¬ s.shared.borrowed < maxPoolSize) :
    ∃ fs t, (coroutines lib sha host port maxSessions).machine.Run (es ++ fs) t ∧
      (∀ e ∈ fs, Answered answers e) ∧
      t.tasks.map (·.request) = s.tasks.map (·.request) ∧ t.shared.stopped = stopped ∧
      t.shared.borrowed < maxPoolSize := by
  obtain ⟨count, bound⟩ := borrowed_of_run run
  have inUse : 0 < (holders ((coroutines lib sha host port maxSessions).history es)).card := by
    rw [← count]
    exact Nat.lt_of_lt_of_le (by decide) (Nat.le_of_not_lt full)
  obtain ⟨i, holder⟩ := Finset.card_pos.1 inUse
  obtain ⟨task, found⟩ := holder_found run holder
  have others := Finset.card_erase_lt_of_mem holder
  rw [← count] at others
  obtain ⟨fs, t, program, ran, mine, ended, halted, room⟩ :=
    Coroutines.can_halt (C := coroutines lib sha host port maxSessions) (J := RoomFor stopped)
      handler_wp (fun _ _ _ _ _ room within runs => room.answers within answers runs) run found
      ⟨context, count, Nat.lt_of_lt_of_le others bound⟩
  have len : i < s.tasks.length := (List.getElem?_eq_some_iff.1 found).1
  have last : t.tasks[i]? = some { task with program } := by
    rw [ended]
    exact List.getElem?_set_self len
  refine ⟨fs, t, ran, fun e mem => ⟨i, mine e mem⟩, ?_, room.context, room.free ran last halted⟩
  rw [ended, Coroutines.requests_set found]

open Service (ackLib constantSha)

/-- Neither the database nor Janus can be reached. -/
def unreachable : (o : TransportOp) → o.Ans
  | .direct o => Service.silence.answer o
  | .getConnection => false
  | .prepareStatement _ => false
  | .execute _ => none
  | .returnConnection => ()
  | .resolve _ _ => false
  | .connect => false
  | .write _ => false
  | .read => none
  | .close => ()

/-- The context is stopped while a meeting's request is being written to Janus. -/
def stoppedRun : List TransportStep := transportRun.dropLast ++ [.background .stop]

end Transport

end Lynks
