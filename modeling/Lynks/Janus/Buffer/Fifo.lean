import Lynks.Lib.KeyedFifo
import Lynks.Janus.Buffer.Invariant

/-!
# Under the strand the buffer is a queue for each transaction

A message is assigned to a call when the call pops it or when `push` stores it in the call's
waiter. Each step on the buffer is matched by puts and takes on a `keyedFifo` of messages
under their transactions (`posts`), so nothing is lost, duplicated or reordered; and the
assignments made so far are exactly what the calls hold (`mem_assigned`).
-/

namespace Lynks.Janus
set_option autoImplicit false

open Lib

/-- The message a call has popped or been given. -/
def WaitCall.Holds (c : WaitCall) (m : ResponseMessage) : Prop :=
  c.result = some m ∨ c.stage = .returned (some m)

namespace ResponseBuffer

/-- A message given to a call for a transaction. -/
structure Assignment where
  call : Nat
  transaction : String
  message : ResponseMessage
  deriving DecidableEq, Repr

/-- The message a step pushes. -/
def StrandEvent.pushed? : StrandEvent → Option ResponseMessage
  | .push m => some m
  | _ => none

/-- The assignments a step makes. -/
def assigned (s : ResponseBuffer) : StrandEvent → List Assignment
  | .push m =>
    ((s.waiters m.transaction).bind fun i => s.calls[i]?.map fun c =>
      Assignment.mk i c.transaction m).toList
  | .wait transaction =>
    ((tryPopLocked transaction s.messages).map fun out =>
      Assignment.mk s.calls.length transaction out.1).toList
  | .timeout _ => []
  | .resume _ => []

/-- What a step does to the mailbox: a delivered message is put and taken at once. -/
def posts (s : ResponseBuffer) : StrandEvent → List (Post ResponseMessage)
  | .push m =>
    match s.waiters m.transaction with
    | some _ => [.put m, .take m]
    | none => [.put m]
  | .wait transaction =>
    ((tryPopLocked transaction s.messages).map fun out => Post.take out.1).toList
  | .timeout _ => []
  | .resume _ => []

/-- The messages of a transaction nobody has taken yet. -/
def buffered (s : ResponseBuffer) (transaction : String) : List ResponseMessage :=
  s.messages.filter (·.transaction = transaction)

/-- An assignment is what the calls hold. -/
def Given (calls : List WaitCall) (a : Assignment) : Prop :=
  ∃ c, calls[a.call]? = some c ∧ c.transaction = a.transaction ∧ c.Holds a.message

variable {s t : ResponseBuffer}

/-! ## The mailbox behind the buffer -/

theorem Quiet.buffered (quiet : s.Quiet) {tx : String} {i : Nat}
    (waiting : s.waiters tx = some i) : s.buffered tx = [] := by
  refine List.filter_eq_nil_iff.2 fun m mem => ?_
  simpa using quiet tx i waiting m mem

theorem buffered_popped {tx : String} {m : ResponseMessage} {rest : List ResponseMessage}
    (found : tryPopLocked tx s.messages = some (m, rest)) (tx' : String) :
    s.buffered tx' = if tx' = tx then m :: rest.filter (·.transaction = tx')
      else rest.filter (·.transaction = tx') := by
  obtain ⟨before, after, split, rfl, rfl, first⟩ := tryPopLocked_some found
  have none_before : before.filter (·.transaction = m.transaction) = [] :=
    List.filter_eq_nil_iff.2 fun m' mem => by simpa using first m' mem
  simp only [ResponseBuffer.buffered, split, List.filter_append]
  by_cases same : tx' = m.transaction
  · subst same
    simp [none_before]
  · simp [same, Ne.symm same]

/-- **Simulation** by a queue for each transaction. -/
theorem posts_step (quiet : s.Quiet) {e : StrandEvent} (taken : strand.step s e = some t) :
    (keyedFifo ResponseMessage.transaction).exec s.buffered (posts s e) = some t.buffered := by
  cases e with
  | push m =>
    obtain rfl := Option.some.inj taken
    cases waiting : s.waiters m.transaction with
    | some i =>
      have empty := quiet.buffered waiting
      have kept : (s.push m).buffered = s.buffered := by
        simp only [ResponseBuffer.push, waiting]
        rfl
      rw [kept]
      simp only [posts, waiting, Machine.exec, keyedFifo, empty, List.nil_append, Option.bind_some,
        Function.update_self, List.head?_cons, if_true, List.tail_cons, Function.update_idem,
        Option.some.injEq]
      rw [← empty, Function.update_eq_self]
    | none =>
      simp only [posts, waiting, Machine.exec, keyedFifo, Option.bind_some, Option.some.injEq]
      funext tx
      by_cases same : tx = m.transaction
      · subst same
        simp [ResponseBuffer.buffered, push_buffered waiting]
      · rw [Function.update_of_ne same]
        simp [ResponseBuffer.buffered, push_buffered waiting, Ne.symm same]
  | wait tx =>
    rcases wait_cases taken with ⟨m, rest, found, rfl⟩ | ⟨found, ⟨j, -, rfl⟩ | ⟨-, rfl⟩⟩
    · have hit : m.transaction = tx := by
        obtain ⟨_, _, _, _, hit, _⟩ := tryPopLocked_some found
        exact hit
      have popped := buffered_popped found
      have front : (s.buffered m.transaction).head? = some m := by simp [popped, hit]
      simp only [posts, found, Option.map_some, Option.toList_some, Machine.exec, keyedFifo, front,
        if_true, Option.bind_some, Option.some.injEq]
      funext tx'
      by_cases same : tx' = tx
      · rw [same, hit, Function.update_self, popped, if_pos rfl]
        rfl
      · rw [Function.update_of_ne (hit ▸ same), popped, if_neg same]
        rfl
    · simp only [posts, found]
      rfl
    · simp only [posts, found]
      rfl
  | timeout i =>
    obtain ⟨_, _, _, rfl⟩ := timeout_cases taken
    rfl
  | resume i =>
    obtain ⟨_, _, _, _, rfl⟩ := resume_cases taken
    rfl

/-- Every assignment takes a message, and is to a call for the message's transaction. -/
theorem assigned_posts (sound : s.Sound) (e : StrandEvent) :
    (posts s e).filterMap Post.take? = (assigned s e).map Assignment.message ∧
      ∀ a ∈ assigned s e, a.message.transaction = a.transaction := by
  cases e with
  | push m =>
    cases waiting : s.waiters m.transaction with
    | some i =>
      obtain ⟨c, call, hit, -⟩ := sound.waiter waiting
      simp [posts, assigned, waiting, call, hit, Post.take?, List.filterMap_cons]
    | none => simp [posts, assigned, waiting, Post.take?]
  | wait tx =>
    cases found : tryPopLocked tx s.messages with
    | some out =>
      obtain ⟨_, _, _, _, hit, _⟩ := tryPopLocked_some (Prod.eta out ▸ found)
      simp [posts, assigned, found, hit, Post.take?]
    | none => simp [posts, assigned, found]
  | timeout i => simp [posts, assigned]
  | resume i => simp [posts, assigned]

theorem posts_pushed (e : StrandEvent) : (posts s e).filterMap Post.put? = e.pushed?.toList := by
  cases e with
  | push m => cases waiting : s.waiters m.transaction <;> simp [posts, waiting, Post.put?,
      StrandEvent.pushed?]
  | wait tx => cases found : tryPopLocked tx s.messages <;> simp [posts, found, Post.put?,
      StrandEvent.pushed?]
  | timeout i => rfl
  | resume i => rfl

/-! ## The assignments are what the calls hold -/

/-- A call that holds what it held before. -/
theorem given_set {i : Nat} {c c' : WaitCall} {calls : List WaitCall} (call : calls[i]? = some c)
    (same : c'.transaction = c.transaction) (keeps : ∀ m, c'.Holds m ↔ c.Holds m)
    (a : Assignment) : Given (calls.set i c') a ↔ Given calls a := by
  have len : i < calls.length := (List.getElem?_eq_some_iff.1 call).1
  by_cases hit : i = a.call
  · subst hit
    simp [Given, List.getElem?_set_self len, call, same, keeps]
  · simp [Given, List.getElem?_set_ne hit]

/-- A new call. -/
theorem given_append {c : WaitCall} {calls : List WaitCall} (a : Assignment) :
    Given (calls ++ [c]) a ↔ Given calls a ∨
      a.call = calls.length ∧ c.transaction = a.transaction ∧ c.Holds a.message := by
  rcases Nat.lt_trichotomy a.call calls.length with less | same | more
  · simp [Given, List.getElem?_append_left less, Nat.ne_of_lt less]
  · simp [Given, same]
  · have beyond : (calls ++ [c]).length ≤ a.call := by
      rw [List.length_append]
      exact more
    simp [Given, List.getElem?_eq_none (Nat.le_of_lt more), Nat.ne_of_gt more,
      List.getElem?_eq_none beyond]

/-- A step assigns exactly what calls hold after it and did not before. -/
theorem given_step (sound : s.Sound) {e : StrandEvent} (taken : strand.step s e = some t)
    (a : Assignment) : Given t.calls a ↔ Given s.calls a ∨ a ∈ assigned s e := by
  cases e with
  | push m =>
    obtain rfl := Option.some.inj taken
    cases waiting : s.waiters m.transaction with
    | none => simp [push_buffered waiting, assigned, waiting]
    | some i =>
      obtain ⟨c, call, hit, empty, stage⟩ := sound.waiter waiting
      have len : i < s.calls.length := (List.getElem?_eq_some_iff.1 call).1
      have before : ∀ m', ¬ c.Holds m' := by
        rcases stage with stage | stage <;> simp [WaitCall.Holds, empty, stage]
      have after : ∀ m', (c.deliver m).Holds m' ↔ m' = m := by
        rcases stage with stage | stage <;> simp [WaitCall.Holds, WaitCall.deliver, stage, eq_comm]
      simp only [push_delivered waiting call, assigned, waiting, call, Option.bind_some,
        Option.map_some, Option.toList_some, List.mem_singleton]
      obtain ⟨j, tx, m'⟩ := a
      by_cases same : i = j
      · subst same
        have own : (c.deliver m).transaction = c.transaction := rfl
        simp only [Given, List.getElem?_set_self len, call, Option.some.injEq, exists_eq_left', own,
          before, after, and_false, false_or, Assignment.mk.injEq, true_and]
        exact and_congr_left fun _ => eq_comm
      · simp [Given, List.getElem?_set_ne same, Ne.symm same]
  | wait tx =>
    rcases wait_cases taken with ⟨m, rest, found, rfl⟩ | ⟨found, ⟨j, -, rfl⟩ | ⟨-, rfl⟩⟩
    · obtain ⟨j, tx', m'⟩ := a
      simp [given_append, assigned, found, WaitCall.Holds, eq_comm]
    · simp [given_append, assigned, found, WaitCall.Holds]
    · simp [given_append, assigned, found, WaitCall.Holds]
  | timeout i =>
    obtain ⟨tx, result, call, rfl⟩ := timeout_cases taken
    have same : Given (s.calls.set i ⟨tx, .suspended (some .timeout), result⟩) a ↔
        Given s.calls a := given_set call (by rfl) (by simp [WaitCall.Holds]) a
    simpa [assigned] using same
  | resume i =>
    obtain ⟨tx, which, result, call, rfl⟩ := resume_cases taken
    have same : Given (s.calls.set i
        ⟨tx, .returned (if which = .signal then result else none), result⟩) a ↔
        Given s.calls a := given_set call (by rfl) (by cases which <;> simp [WaitCall.Holds]) a
    simpa [assigned] using same

/-- **The assignments made in a run are exactly what its calls hold.** -/
theorem mem_assigned {es : List StrandEvent} (run : strand.Run es s) (a : Assignment) :
    a ∈ strand.log assigned es ↔ Given s.calls a := by
  revert a
  refine Machine.Run.induct (M := strand) (I := fun es s =>
    ∀ a, a ∈ strand.log assigned es ↔ Given s.calls a) ?_ ?_ run
  · simp [strand, ResponseBuffer.empty, Given]
  · intro es s e t run ih taken a
    rw [Machine.log_snoc run, List.mem_append, ih, given_step (sound_of_strand run) taken]

/-- No call is assigned a second message. -/
theorem assigned_once {es : List StrandEvent} (run : strand.Run es s) :
    ((strand.log assigned es).map Assignment.call).Nodup := by
  refine Machine.Run.induct (M := strand) (I := fun es _ =>
    ((strand.log assigned es).map Assignment.call).Nodup) (by simp) ?_ run
  intro es s e t run ih taken
  have fresh : ∀ a ∈ assigned s e, ∀ a', Given s.calls a' → a'.call ≠ a.call := by
    rintro a mem a' ⟨c', call', -, holds⟩ same
    cases e with
    | push m =>
      cases waiting : s.waiters m.transaction with
      | none => simp [assigned, waiting] at mem
      | some i =>
        obtain ⟨c, call, -, empty, stage⟩ := (sound_of_strand run).waiter waiting
        simp only [assigned, waiting, call, Option.bind_some, Option.map_some,
          Option.toList_some, List.mem_singleton] at mem
        subst mem
        rw [same, call] at call'
        obtain rfl := Option.some.inj call'
        rcases stage with stage | stage <;> simp [WaitCall.Holds, empty, stage] at holds
    | wait tx =>
      have old : a'.call < s.calls.length := (List.getElem?_eq_some_iff.1 call').1
      have new : a.call = s.calls.length := by
        cases found : tryPopLocked tx s.messages <;> simp [assigned, found] at mem
        exact mem ▸ rfl
      exact Nat.ne_of_lt old (same.trans new)
    | timeout i => cases mem
    | resume i => cases mem
  have single : ((assigned s e).map Assignment.call).Nodup := by
    cases e with
    | push m =>
      simp only [assigned]
      cases (s.waiters m.transaction).bind _ <;> simp
    | wait tx => cases found : tryPopLocked tx s.messages <;> simp [assigned, found]
    | timeout i => simp [assigned]
    | resume i => simp [assigned]
  rw [Machine.log_snoc run, List.map_append]
  refine List.nodup_append.2 ⟨ih, single, ?_⟩
  intro i earlier j later
  obtain ⟨a', mem', rfl⟩ := List.mem_map.1 earlier
  obtain ⟨a, mem, rfl⟩ := List.mem_map.1 later
  exact fresh a mem a' ((mem_assigned run a').1 mem')

/-! ## Nothing is lost, duplicated or reordered -/

theorem posts_run {es : List StrandEvent} (run : strand.Run es s) :
    (keyedFifo ResponseMessage.transaction).Run (strand.log posts es) s.buffered := by
  obtain ⟨q, matched, -, rfl⟩ := Machine.Run.simulate
    (N := keyedFifo ResponseMessage.transaction)
    (R := fun s q => s.Quiet ∧ q = s.buffered) ⟨Quiet.empty, rfl⟩
    (by
      rintro s e t _ ⟨quiet, rfl⟩ taken
      exact ⟨t.buffered, posts_step quiet taken, quiet.strand_step taken, rfl⟩) run
  exact matched

theorem pushed_posts {es : List StrandEvent} (run : strand.Run es s) :
    (strand.log posts es).filterMap Post.put? = es.filterMap StrandEvent.pushed? := by
  rw [Machine.log_filterMap]
  simp only [posts_pushed]
  rw [Machine.Run.log_events run, List.filterMap_eq_flatMap_toList]

theorem taken_posts {es : List StrandEvent} (run : strand.Run es s) :
    (strand.log posts es).filterMap Post.take? =
      (strand.log assigned es).map Assignment.message := by
  rw [Machine.log_filterMap, ← List.filterMap_eq_map, Machine.log_filterMap]
  refine Machine.Run.log_congr run fun s e t reachable _ => ?_
  obtain ⟨es, run⟩ := reachable
  rw [(assigned_posts (sound_of_strand run) e).1, List.filterMap_eq_map]

theorem assigned_own {es : List StrandEvent} (run : strand.Run es s) :
    ∀ a ∈ strand.log assigned es, a.message.transaction = a.transaction := by
  refine Machine.Run.induct (M := strand) (I := fun es _ =>
    ∀ a ∈ strand.log assigned es, a.message.transaction = a.transaction) (by simp) ?_ run
  intro es s e t run ih _ a mem
  rw [Machine.log_snoc run, List.mem_append] at mem
  rcases mem with mem | mem
  · exact ih a mem
  · exact (assigned_posts (sound_of_strand run) e).2 a mem

/-- **Conservation.** For each transaction, what its calls have been assigned followed by what
is still buffered is what was pushed. Each message goes to one call, for the message's own
transaction, in order of arrival; no transaction has both a waiter and a buffered message;
and every waiter belongs to a call suspended without a result. -/
theorem assigned_append_buffered {es : List StrandEvent} (run : strand.Run es s) :
    (∀ tx,
      ((strand.log assigned es).filter (·.transaction = tx)).map Assignment.message ++
          s.messages.filter (·.transaction = tx) =
        (es.filterMap StrandEvent.pushed?).filter (·.transaction = tx)) ∧
      (∀ a, a ∈ strand.log assigned es ↔ Given s.calls a) ∧
      ((strand.log assigned es).map Assignment.call).Nodup ∧
      (∀ a ∈ strand.log assigned es, a.message.transaction = a.transaction) ∧
      (∀ tx i, s.waiters tx = some i → ∀ m ∈ s.messages, m.transaction ≠ tx) ∧
      ∀ tx i, s.waiters tx = some i → ∃ c which, s.calls[i]? = some c ∧ c.transaction = tx ∧
        c.stage = .suspended which ∧ c.result = none := by
  refine ⟨fun tx => ?_, mem_assigned run, assigned_once run, assigned_own run,
    quiet_of_strand run, ?_⟩
  · have conserved := put_eq_taken_append (posts_run run) tx
    rw [pushed_posts run, taken_posts run, List.filter_map] at conserved
    rw [conserved]
    congr 2
    refine List.filter_congr fun a mem => ?_
    simp [assigned_own run a mem]
  · intro tx i waiting
    obtain ⟨which, call, -⟩ := (sound_of_strand run).registered tx i waiting
    exact ⟨_, which, call, rfl, rfl, rfl⟩

/-- The first message goes to the waiting call, the second to the buffer. -/
def twoAnswers : List StrandEvent :=
  [.wait "a", .push ⟨"event", "a", "first"⟩, .push ⟨"event", "a", "second"⟩, .resume 0]

theorem assigned_append_buffered_twoAnswers : ∃ s, strand.Run twoAnswers s ∧
    s.messages = [⟨"event", "a", "second"⟩] ∧
    ∀ tx, ((strand.log assigned twoAnswers).filter (·.transaction = tx)).map Assignment.message ++
        s.messages.filter (·.transaction = tx) =
      (twoAnswers.filterMap StrandEvent.pushed?).filter (·.transaction = tx) := by
  obtain ⟨s, run, rest⟩ : ∃ s, strand.Run twoAnswers s ∧
      s.messages = [⟨"event", "a", "second"⟩] := ⟨_, rfl, rfl⟩
  exact ⟨s, run, rest, (assigned_append_buffered run).1⟩

end ResponseBuffer

end Lynks.Janus
