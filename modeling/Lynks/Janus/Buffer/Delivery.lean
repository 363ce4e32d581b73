import Lynks.Janus.Buffer.Invariant

/-!
# What reaches the caller

Two windows stay open under the strand, both between the completion of a timer and the
resumption of the call.

A push may still find the waiter of a call whose timeout has fired. The message is stored in
the waiter, and the call returns `nullopt`. `returned_iff` says that this is the only way to
lose a stored message.

A call may register while another call for its transaction has been given its message but
has not resumed. The resumption erases by key, and takes the new registration with it.
`registered_iff` says that this is the only way a waiting call loses its registration.
-/

namespace Lynks.Janus
set_option autoImplicit false

open Lib

/-- The call has been completed and has not resumed. -/
def WaitCall.completed (c : WaitCall) : Bool :=
  match c.stage with
  | .suspended (some _) => true
  | _ => false

theorem WaitCall.completed_iff {c : WaitCall} :
    c.completed = true ↔ ∃ which, c.stage = .suspended (some which) := by
  unfold completed
  split <;> simp_all

namespace ResponseBuffer

variable {s t : ResponseBuffer}

/-! ## A stored message is returned -/

/-- A call that has returned, returned the message stored in its waiter. -/
def ResultReturned (s : ResponseBuffer) : Prop :=
  ∀ c ∈ s.calls, ∀ m value, c.result = some m → c.stage = .returned value → value = some m

/-- The step is not a push to a call whose timeout has fired. -/
def pushInTime (s : ResponseBuffer) : StrandEvent → Bool
  | .push m =>
    ((s.waiters m.transaction).bind (s.calls[·]?)).all fun c =>
      c.stage ≠ .suspended (some .timeout)
  | _ => true

/-- Every stored message is going to be returned. -/
def ResultDue (s : ResponseBuffer) : Prop :=
  ∀ c ∈ s.calls, ∀ m, c.result = some m →
    c.stage = .suspended (some .signal) ∨ c.stage = .returned (some m)

/-- A call that holds a message it will not return, or has not returned. -/
def Lost (s : ResponseBuffer) (i : Nat) : Prop :=
  ∃ c m, s.calls[i]? = some c ∧ c.result = some m ∧
    (c.stage = .suspended (some .timeout) ∨ c.stage = .returned none)

/-- Every push of the run is in time. -/
abbrev PushesInTime : List StrandEvent → Prop := strand.Guarded fun s e => pushInTime s e = true

/-- A push in time is due to be returned. -/
theorem ResultDue.step (sound : s.Sound) (due : s.ResultDue) {e : StrandEvent}
    (inTime : pushInTime s e = true) (taken : strand.step s e = some t) : t.ResultDue := by
  cases e with
  | push m =>
    obtain rfl := Option.some.inj taken
    cases waiting : s.waiters m.transaction with
    | none =>
      rw [push_buffered waiting]
      exact due
    | some i =>
      obtain ⟨c, call, -, -, stage⟩ := sound.waiter waiting
      rw [push_delivered waiting call]
      have unfired : c.stage = .suspended none := by
        refine stage.resolve_right ?_
        simpa [pushInTime, waiting, call] using inTime
      refine forall_set due fun m' stored => Or.inl ?_
      simp [WaitCall.deliver, unfired]
  | wait tx =>
    rcases wait_cases taken with ⟨m, rest, -, rfl⟩ | ⟨-, ⟨j, -, rfl⟩ | ⟨-, rfl⟩⟩
    all_goals exact forall_append due fun m' stored => by cases stored
  | timeout i =>
    obtain ⟨tx, result, call, rfl⟩ := timeout_cases taken
    obtain rfl : result = none := (sound.call call).2
    exact forall_set due fun m stored => by cases stored
  | resume i =>
    obtain ⟨tx, which, result, call, rfl⟩ := resume_cases taken
    refine forall_set due fun m stored => Or.inr ?_
    rcases due _ (List.mem_of_getElem? call) m stored with signal | returned
    · cases signal
      exact congrArg (fun r => Stage.returned r) stored
    · cases returned

/-- A lost message stays lost. -/
theorem Lost.step (sound : s.Sound) {i : Nat} (lost : s.Lost i) {e : StrandEvent}
    (taken : strand.step s e = some t) : t.Lost i := by
  obtain ⟨c, m, call, stored, stage⟩ := lost
  have len : i < s.calls.length := (List.getElem?_eq_some_iff.1 call).1
  cases e with
  | push m' =>
    obtain rfl := Option.some.inj taken
    cases waiting : s.waiters m'.transaction with
    | none =>
      rw [push_buffered waiting]
      exact ⟨c, m, call, stored, stage⟩
    | some j =>
      obtain ⟨c', call', -, empty, -⟩ := sound.waiter waiting
      rw [push_delivered waiting call']
      have other : j ≠ i := by
        rintro rfl
        rw [call] at call'
        obtain rfl := Option.some.inj call'
        rw [stored] at empty
        cases empty
      exact ⟨c, m, (List.getElem?_set_ne other).trans call, stored, stage⟩
  | wait tx =>
    have kept : ∀ c', (s.calls ++ [c'])[i]? = some c := fun c' =>
      (List.getElem?_append_left len).trans call
    rcases wait_cases taken with ⟨m, rest, -, rfl⟩ | ⟨-, ⟨j, -, rfl⟩ | ⟨-, rfl⟩⟩
    all_goals exact ⟨c, _, kept _, stored, stage⟩
  | timeout j =>
    obtain ⟨tx, result, call', rfl⟩ := timeout_cases taken
    have other : j ≠ i := by
      rintro rfl
      rw [call] at call'
      obtain rfl := Option.some.inj call'
      rcases stage with stage | stage <;> cases stage
    exact ⟨c, m, (List.getElem?_set_ne other).trans call, stored, stage⟩
  | resume j =>
    obtain ⟨tx, which, result, call', rfl⟩ := resume_cases taken
    by_cases same : j = i
    · subst same
      rw [call] at call'
      obtain rfl := Option.some.inj call'
      refine ⟨_, m, List.getElem?_set_self len, stored, Or.inr ?_⟩
      rcases stage with stage | stage <;> cases stage
      rfl
    · exact ⟨c, m, (List.getElem?_set_ne same).trans call, stored, stage⟩

/-- A push too late is lost. -/
theorem lost_of_late (sound : s.Sound) {e : StrandEvent} (late : ¬ pushInTime s e = true)
    (taken : strand.step s e = some t) : ∃ i, t.Lost i := by
  cases e with
  | push m =>
    obtain rfl := Option.some.inj taken
    cases waiting : s.waiters m.transaction with
    | none => simp [pushInTime, waiting] at late
    | some i =>
      obtain ⟨c, call, -, -, -⟩ := sound.waiter waiting
      have fired : c.stage = .suspended (some .timeout) := by
        simpa [pushInTime, waiting, call] using late
      have len : i < s.calls.length := (List.getElem?_eq_some_iff.1 call).1
      rw [push_delivered waiting call]
      exact ⟨i, _, m, List.getElem?_set_self len, rfl, Or.inl (by simp [WaitCall.deliver, fired])⟩
  | wait tx => simp [pushInTime] at late
  | timeout i => simp [pushInTime] at late
  | resume i => simp [pushInTime] at late

/-- Letting a timed-out call resume shows what it lost. -/
theorem Lost.shown {es : List StrandEvent} {i : Nat} (run : strand.Run es s) (lost : s.Lost i) :
    ∃ fs t, (∀ e ∈ fs, ∃ i, e = .resume i) ∧ strand.Run (es ++ fs) t ∧ ¬ t.ResultReturned := by
  obtain ⟨⟨tx, stage, result⟩, m, call, stored, fired | returned⟩ := lost
  · cases fired
    have taken : strand.step s (.resume i) = some { s with
        waiters := Function.update s.waiters tx none
        calls := s.calls.set i ⟨tx, .returned none, result⟩ } := by
      simp [strand, ResponseBuffer.resume, call]
    refine ⟨[.resume i], _, by simp, run.snoc taken, fun kept => ?_⟩
    have len : i < s.calls.length := (List.getElem?_eq_some_iff.1 call).1
    have mem : (⟨tx, .returned none, result⟩ : WaitCall) ∈
        s.calls.set i ⟨tx, .returned none, result⟩ := List.mem_set len _
    cases kept _ mem m none stored rfl
  · have run' : strand.Run (es ++ []) s := by simpa using run
    refine ⟨[], s, by simp, run', fun kept => ?_⟩
    cases kept _ (List.mem_of_getElem? call) m none stored returned

/-- **A stored message is returned, in a run and in all its resumptions, exactly when no push
finds a waiter whose timeout has fired.** -/
theorem returned_iff {es : List StrandEvent} (run : strand.Run es s) :
    (∀ fs, (∀ e ∈ fs, ∃ i, e = StrandEvent.resume i) → strand.Always ResultReturned (es ++ fs)) ↔
      PushesInTime es := by
  refine Machine.always_extended_iff_guarded (I := fun s => Sound s ∧ ResultDue s)
    (B := fun s => ∃ i, Lost s i) ⟨Sound.empty, by simp [ResultDue, strand, empty]⟩
    ?next ?use ?free ?brings ?keeps ?shown run
  case next =>
    rintro s e t ⟨sound, due⟩ inTime taken
    exact ⟨sound.strand_step taken, due.step sound inTime taken⟩
  case use =>
    rintro s ⟨-, due⟩ c mem m value stored returned
    rcases due c mem m stored with signal | returned'
    · rw [returned] at signal
      cases signal
    · rw [returned] at returned'
      exact Stage.returned.inj returned'
  case free =>
    rintro e ⟨i, rfl⟩ s
    rfl
  case brings =>
    rintro s e t ⟨es, run⟩ late taken
    exact lost_of_late (sound_of_strand run) late taken
  case keeps =>
    rintro s e t ⟨es, run⟩ ⟨i, lost⟩ taken
    exact ⟨i, lost.step (sound_of_strand run) taken⟩
  case shown =>
    rintro es s run ⟨i, lost⟩
    exact lost.shown run

/-- A push after the timeout and before the resumption. -/
def lateAnswer : List StrandEvent :=
  [.wait "a", .timeout 0, .push ⟨"event", "a", "late"⟩, .resume 0]

/-- The call returns `nullopt` with the message stored in its waiter. -/
theorem late_answer_lost : ∃ s, strand.Run lateAnswer s ∧
    s.calls = [⟨"a", .returned none, some ⟨"event", "a", "late"⟩⟩] ∧ ¬ s.ResultReturned := by
  refine ⟨_, rfl, rfl, fun kept => ?_⟩
  cases kept _ (List.mem_singleton.2 rfl) _ none rfl rfl

/-- The push comes before the timeout. -/
def promptAnswer : List StrandEvent :=
  [.wait "a", .push ⟨"event", "a", "prompt"⟩]

theorem returned_iff_promptAnswer :
    strand.Always ResultReturned (promptAnswer ++ [.resume 0]) := by
  have ran : ∃ s, strand.Run promptAnswer s := ⟨_, rfl⟩
  obtain ⟨s, run⟩ := ran
  have inTime : PushesInTime promptAnswer := Machine.guarded_of_check (by decide)
  exact (returned_iff run).2 inTime [.resume 0] (by simp)

/-! ## A waiting call keeps its registration -/

/-- Every call that waits, with neither a message nor a timeout, is the one registered under its
transaction: a push reaches it, and no other call's completion removes it. -/
def WaitingRegistered (s : ResponseBuffer) : Prop :=
  ∀ i c, s.calls[i]? = some c → c.stage = .suspended none → c.result = none →
    s.waiters c.transaction = some i ∧
    (∀ m, m.transaction = c.transaction → (s.push m).calls[i]? = some (c.deliver m)) ∧
    ∀ j t, j ≠ i → s.resume j = some t → t.waiters c.transaction = some i

/-- The step does not register a call while another for its transaction is to resume. -/
def registersAlone (s : ResponseBuffer) : StrandEvent → Bool
  | .wait transaction =>
    (tryPopLocked transaction s.messages).isSome || (s.waiters transaction).isSome ||
      s.calls.all fun c => !(c.completed && c.transaction == transaction)
  | _ => true

/-- The registrations are those of the suspended calls. -/
structure Exclusive (s : ResponseBuffer) : Prop where
  registered : ∀ i c which, s.calls[i]? = some c → c.stage = .suspended which → c.result = none →
    s.waiters c.transaction = some i
  alone : ∀ i j c which, s.waiters c.transaction = some i → s.calls[j]? = some c →
    c.stage = .suspended which → j = i

theorem Exclusive.push (sound : s.Sound) (exclusive : s.Exclusive) (m : ResponseMessage) :
    (s.push m).Exclusive := by
  cases waiting : s.waiters m.transaction with
  | none =>
    rw [push_buffered waiting]
    exact ⟨exclusive.registered, exclusive.alone⟩
  | some i =>
    obtain ⟨c, call, hit, -, -⟩ := sound.waiter waiting
    rw [push_delivered waiting call]
    constructor
    · intro j c' which call' stage empty
      rcases getElem?_set_cases call' with ⟨rfl, rfl⟩ | ⟨other, call'⟩
      · cases empty
      · have own := exclusive.registered j c' which call' stage empty
        have apart : c'.transaction ≠ m.transaction := by
          intro same
          rw [same, waiting] at own
          exact other (Option.some.inj own).symm
        exact (Function.update_of_ne apart _ _).trans own
    · intro i' j c' which waiting' call' stage
      by_cases same : c'.transaction = m.transaction
      · simp [same] at waiting'
      · simp only [Function.update_of_ne same] at waiting'
        rcases getElem?_set_cases call' with ⟨rfl, rfl⟩ | ⟨-, call'⟩
        · exact absurd hit same
        · exact exclusive.alone i' j c' which waiting' call' stage

theorem Exclusive.returned (exclusive : s.Exclusive) {tx : String} {value : Option ResponseMessage}
    {result : Option ResponseMessage} (messages : List ResponseMessage) :
    Exclusive { s with messages, calls := s.calls ++ [⟨tx, .returned value, result⟩] } := by
  constructor
  · intro j c which call stage empty
    rcases getElem?_append_cases call with call | ⟨rfl, rfl⟩
    · exact exclusive.registered j c which call stage empty
    · cases stage
  · intro i j c which waiting call stage
    rcases getElem?_append_cases call with call | ⟨rfl, rfl⟩
    · exact exclusive.alone i j c which waiting call stage
    · cases stage

/-- A registration is exclusive when no suspended call is left under the transaction. -/
theorem Exclusive.registration (exclusive : s.Exclusive) {tx : String}
    (none_left : ∀ c ∈ s.calls, ∀ which, c.stage = .suspended which → c.transaction ≠ tx) :
    Exclusive { s with
      calls := s.calls ++ [⟨tx, .suspended none, none⟩]
      waiters := Function.update s.waiters tx (some s.calls.length) } := by
  constructor
  · intro j c which call stage empty
    rcases getElem?_append_cases call with call | ⟨rfl, rfl⟩
    · have apart := none_left c (List.mem_of_getElem? call) which stage
      exact (Function.update_of_ne apart _ _).trans
        (exclusive.registered j c which call stage empty)
    · exact Function.update_self _ _ _
  · intro i j c which waiting call stage
    rcases getElem?_append_cases call with call | ⟨rfl, rfl⟩
    · have apart := none_left c (List.mem_of_getElem? call) which stage
      simp only [Function.update_of_ne apart] at waiting
      exact exclusive.alone i j c which waiting call stage
    · simpa using waiting

theorem Exclusive.timeout (exclusive : s.Exclusive) {i : Nat} (taken : s.timeout i = some t) :
    t.Exclusive := by
  obtain ⟨tx, result, call, rfl⟩ := timeout_cases taken
  constructor
  · intro j c which call' stage empty
    rcases getElem?_set_cases call' with ⟨rfl, rfl⟩ | ⟨-, call'⟩
    · exact exclusive.registered j ⟨tx, .suspended none, result⟩ none call rfl empty
    · exact exclusive.registered j c which call' stage empty
  · intro i' j c which waiting call' stage
    rcases getElem?_set_cases call' with ⟨rfl, rfl⟩ | ⟨-, call'⟩
    · exact exclusive.alone i' j ⟨tx, .suspended none, result⟩ none waiting call rfl
    · exact exclusive.alone i' j c which waiting call' stage

theorem Exclusive.resume (exclusive : s.Exclusive) {i : Nat} (taken : s.resume i = some t) :
    t.Exclusive := by
  obtain ⟨tx, which, result, call, rfl⟩ := resume_cases taken
  constructor
  · intro j c which' call' stage empty
    rcases getElem?_set_cases call' with ⟨rfl, rfl⟩ | ⟨other, call'⟩
    · cases stage
    · have own := exclusive.registered j c which' call' stage empty
      have apart : c.transaction ≠ tx := by
        rintro rfl
        exact other (exclusive.alone j i ⟨c.transaction, _, result⟩ _ own call rfl).symm
      exact (Function.update_of_ne apart _ _).trans own
  · intro i' j c which' waiting call' stage
    rcases getElem?_set_cases call' with ⟨rfl, rfl⟩ | ⟨-, call'⟩
    · cases stage
    · by_cases same : c.transaction = tx
      · simp [same] at waiting
      · simp only [Function.update_of_ne same] at waiting
        exact exclusive.alone i' j c which' waiting call' stage

/-- The guard leaves no call suspended under the transaction. -/
theorem Exclusive.none_left (sound : s.Sound) (exclusive : s.Exclusive) {tx : String}
    (found : tryPopLocked tx s.messages = none) (nobody : s.waiters tx = none)
    (guard : registersAlone s (.wait tx) = true) :
    ∀ c ∈ s.calls, ∀ which, c.stage = .suspended which → c.transaction ≠ tx := by
  rintro c mem which stage rfl
  obtain ⟨i, call⟩ := List.mem_iff_getElem?.1 mem
  cases which with
  | none =>
    have empty : c.result = none := by
      have good := (sound.calls c mem).2
      rw [stage] at good
      exact good
    have own := exclusive.registered i c none call stage empty
    rw [nobody] at own
    cases own
  | some which =>
    have completed := WaitCall.completed_iff.2 ⟨which, stage⟩
    simp only [registersAlone, found, nobody, Option.isSome_none, Bool.or_self, Bool.false_or,
      List.all_eq_true] at guard
    simpa [completed] using guard c mem

theorem Exclusive.step (sound : s.Sound) (exclusive : s.Exclusive) {e : StrandEvent}
    (guard : registersAlone s e = true) (taken : strand.step s e = some t) : t.Exclusive := by
  cases e with
  | push m => exact Option.some.inj taken ▸ exclusive.push sound m
  | wait tx =>
    rcases wait_cases taken with ⟨m, rest, -, rfl⟩ | ⟨found, ⟨j, -, rfl⟩ | ⟨nobody, rfl⟩⟩
    · exact exclusive.returned rest
    · exact exclusive.returned s.messages
    · exact exclusive.registration (exclusive.none_left sound found nobody guard)
  | timeout i => exact exclusive.timeout taken
  | resume i => exact exclusive.resume taken

theorem Exclusive.waitingRegistered (exclusive : s.Exclusive) : s.WaitingRegistered := by
  intro i c call stage empty
  have own := exclusive.registered i c none call stage empty
  refine ⟨own, ?_, ?_⟩
  · intro m hit
    rw [push_delivered (hit ▸ own) call]
    exact List.getElem?_set_self (List.getElem?_eq_some_iff.1 call).1
  · intro j t other taken
    obtain ⟨tx, which, result, call', rfl⟩ := resume_cases taken
    have apart : c.transaction ≠ tx := by
      rintro rfl
      exact other (exclusive.alone i j ⟨c.transaction, _, result⟩ _ own call' rfl)
    exact (Function.update_of_ne apart _ _).trans own

/-- A registration beside a completed call is one resumption away from its end. -/
theorem unguarded_registration {e : StrandEvent} (unguarded : ¬ registersAlone s e = true)
    (taken : strand.step s e = some t) : ¬ t.WaitingRegistered := by
  intro all
  cases e with
  | wait tx =>
    simp only [registersAlone, Bool.or_eq_true, List.all_eq_true, not_or, not_forall] at unguarded
    obtain ⟨⟨missing, free⟩, c, mem, beside⟩ := unguarded
    obtain ⟨completed, hit⟩ : c.completed = true ∧ c.transaction = tx := by simpa using beside
    obtain ⟨which, stage⟩ := WaitCall.completed_iff.1 completed
    obtain ⟨j, call⟩ := List.mem_iff_getElem?.1 mem
    have len : j < s.calls.length := (List.getElem?_eq_some_iff.1 call).1
    rcases wait_cases taken with ⟨m, rest, found, -⟩ | ⟨-, ⟨j', waiting, -⟩ | ⟨-, rfl⟩⟩
    · simp [found] at missing
    · simp [waiting] at free
    · have call' : (s.calls ++ [⟨tx, .suspended none, none⟩])[j]? = some c :=
        (List.getElem?_append_left len).trans call
      obtain ⟨-, -, kept⟩ := all s.calls.length ⟨tx, .suspended none, none⟩ (by simp) rfl rfl
      obtain ⟨tx', stage', result⟩ := c
      cases stage
      cases hit
      have erased := kept j _ (Nat.ne_of_lt len) (by simp [ResponseBuffer.resume, call']; rfl)
      simp at erased
  | push m => simp [registersAlone] at unguarded
  | timeout i => simp [registersAlone] at unguarded
  | resume i => simp [registersAlone] at unguarded

/-- **Every waiting call keeps its registration exactly when no call registers while another
for its transaction has been completed and is still to resume.** -/
theorem registered_iff {es : List StrandEvent} (run : strand.Run es s) :
    strand.Always WaitingRegistered es ↔
      strand.Guarded (fun s e => registersAlone s e = true) es := by
  refine Machine.always_iff_guarded (I := fun s => Sound s ∧ Exclusive s)
    ⟨Sound.empty, ?_⟩ ?_ ?_ ?_ run
  · constructor <;> simp [strand, empty]
  · rintro s e t ⟨sound, exclusive⟩ guard taken
    exact ⟨sound.strand_step taken, exclusive.step sound guard taken⟩
  · rintro s ⟨-, exclusive⟩
    exact exclusive.waitingRegistered
  · rintro s e t - unguarded taken
    exact unguarded_registration unguarded taken

/-- The second call registers between the delivery to the first and its resumption. -/
def reusedTransaction : List StrandEvent :=
  [.wait "a", .push ⟨"event", "a", "first"⟩, .wait "a", .resume 0]

/-- The second call waits and nothing is registered; the next message is buffered. -/
theorem registration_removed : ∃ s, strand.Run reusedTransaction s ∧
    s.calls[1]? = some ⟨"a", .suspended none, none⟩ ∧ s.waiters "a" = none ∧
    ¬ s.WaitingRegistered := by
  refine ⟨_, rfl, rfl, rfl, fun all => ?_⟩
  obtain ⟨own, -⟩ := all 1 ⟨"a", .suspended none, none⟩ rfl rfl rfl
  cases own

/-- The second call comes after the first has resumed. -/
def separateTransactions : List StrandEvent :=
  [.wait "a", .push ⟨"event", "a", "first"⟩, .resume 0, .wait "a"]

theorem registered_iff_separate : strand.Always WaitingRegistered separateTransactions := by
  have ran : ∃ s, strand.Run separateTransactions s := ⟨_, rfl⟩
  obtain ⟨s, run⟩ := ran
  exact (registered_iff run).2 (Machine.guarded_of_check (by decide))

end ResponseBuffer

end Lynks.Janus
