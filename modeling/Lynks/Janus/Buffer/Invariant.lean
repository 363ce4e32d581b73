import Lynks.Janus.ResponseBuffer

/-!
# What every step on the buffer keeps

`Sound` holds under any interleaving, serialised or not: a registered waiter belongs to a
suspended call for its transaction that has no result, and a call only ever holds a message
of its own transaction. `Quiet` (no transaction has both a waiter and a buffered message) is
kept by every operation but a registration made after a message came in.
-/

namespace Lynks.Janus
set_option autoImplicit false

open Lib

/-- What a call holds at each stage. -/
def WaitCall.Sound (c : WaitCall) : Prop :=
  (∀ m, c.result = some m → m.transaction = c.transaction) ∧
  match c.stage with
  | .looking => c.result = none
  | .suspended none => c.result = none
  | .suspended (some .signal) => c.result.isSome = true
  | .suspended (some .timeout) => True
  | .returned value => ∀ m, value = some m → m.transaction = c.transaction

namespace ResponseBuffer

theorem getElem?_set_cases {calls : List WaitCall} {i j : Nat} {c c' : WaitCall}
    (call : (calls.set i c)[j]? = some c') : (j = i ∧ c' = c) ∨ (j ≠ i ∧ calls[j]? = some c') := by
  rw [List.getElem?_set] at call
  by_cases same : i = j
  · subst same
    simp only [if_true, Option.ite_none_right_eq_some, Option.some.injEq] at call
    exact Or.inl ⟨rfl, call.2.symm⟩
  · rw [if_neg same] at call
    exact Or.inr ⟨Ne.symm same, call⟩

theorem getElem?_append_cases {calls : List WaitCall} {j : Nat} {c c' : WaitCall}
    (call : (calls ++ [c])[j]? = some c') : calls[j]? = some c' ∨ (j = calls.length ∧ c' = c) := by
  rcases Nat.lt_or_ge j calls.length with less | more
  · exact Or.inl ((List.getElem?_append_left less).symm.trans call)
  · rw [List.getElem?_append_right more, List.getElem?_singleton] at call
    obtain ⟨last, same⟩ := Option.ite_none_right_eq_some.1 call
    have here : j = calls.length := by omega
    exact Or.inr ⟨here, (Option.some.inj same).symm⟩

/-- The registrations and the calls agree. -/
structure Sound (s : ResponseBuffer) : Prop where
  registered : ∀ transaction i, s.waiters transaction = some i →
    ∃ which, s.calls[i]? = some ⟨transaction, .suspended which, none⟩ ∧ which ≠ some .signal
  calls : ∀ c ∈ s.calls, c.Sound

/-- No transaction has both a waiter and a buffered message. -/
def Quiet (s : ResponseBuffer) : Prop :=
  ∀ transaction i, s.waiters transaction = some i →
    ∀ m ∈ s.messages, m.transaction ≠ transaction

variable {s t : ResponseBuffer}

theorem Sound.empty : Sound .empty := by
  constructor <;> simp [ResponseBuffer.empty]

theorem Quiet.empty : Quiet .empty := by
  simp [Quiet, ResponseBuffer.empty]

theorem Sound.call (sound : s.Sound) {i : Nat} {c : WaitCall} (call : s.calls[i]? = some c) :
    c.Sound :=
  sound.calls c (List.mem_of_getElem? call)

/-- A change to one call that no remaining registration belongs to. -/
theorem Sound.set_call (sound : s.Sound) {i : Nat} {c : WaitCall} (good : c.Sound)
    {waiters : String → Option Nat}
    (fewer : ∀ tx j, waiters tx = some j → s.waiters tx = some j ∧ j ≠ i) :
    Sound { s with calls := s.calls.set i c, waiters } := by
  constructor
  · intro tx j waiting
    obtain ⟨old, other⟩ := fewer tx j waiting
    obtain ⟨which, call, open_⟩ := sound.registered tx j old
    have kept : (s.calls.set i c)[j]? = some ⟨tx, .suspended which, none⟩ := by
      rw [List.getElem?_set_ne (Ne.symm other)]
      exact call
    exact ⟨which, kept, open_⟩
  · exact forall_set sound.calls good

/-- The registration a step erases belongs to the call it moves on. -/
theorem Sound.erased (sound : s.Sound) {i : Nat} {c : WaitCall} (call : s.calls[i]? = some c)
    {tx : String} {j : Nat} (h : Function.update s.waiters c.transaction none tx = some j) :
    s.waiters tx = some j ∧ j ≠ i := by
  by_cases same : tx = c.transaction
  · subst same
    simp at h
  · rw [Function.update_of_ne same] at h
    refine ⟨h, ?_⟩
    rintro rfl
    obtain ⟨which, call', -⟩ := sound.registered tx j h
    rw [call] at call'
    exact same (congrArg WaitCall.transaction (Option.some.inj call')).symm

/-- A delivery goes to a suspended call without a result. -/
theorem Sound.waiter (sound : s.Sound) {tx : String} {i : Nat} (waiting : s.waiters tx = some i) :
    ∃ c, s.calls[i]? = some c ∧ c.transaction = tx ∧ c.result = none ∧
      (c.stage = .suspended none ∨ c.stage = .suspended (some .timeout)) := by
  obtain ⟨which, call, open_⟩ := sound.registered tx i waiting
  refine ⟨_, call, rfl, rfl, ?_⟩
  match which with
  | none => exact Or.inl rfl
  | some .timeout => exact Or.inr rfl
  | some .signal => exact absurd rfl open_

theorem Sound.push (sound : s.Sound) (m : ResponseMessage) : (s.push m).Sound := by
  cases waiting : s.waiters m.transaction with
  | none =>
    rw [push_buffered waiting]
    exact ⟨sound.registered, sound.calls⟩
  | some i =>
    obtain ⟨c, call, hit, -, stage⟩ := sound.waiter waiting
    rw [push_delivered waiting call, ← hit]
    refine sound.set_call ?_ fun tx j => sound.erased call
    rcases stage with stage | stage <;> simp [WaitCall.Sound, WaitCall.deliver, stage, hit]

theorem Sound.lookup (sound : s.Sound) (tx : String) : (s.lookup tx).Sound := by
  have appended : ∀ (c : WaitCall) (ms : List ResponseMessage), c.Sound →
      Sound { s with messages := ms, calls := s.calls ++ [c] } := by
    intro c ms good
    constructor
    · intro tx' i waiting
      obtain ⟨which, call, open_⟩ := sound.registered tx' i waiting
      refine ⟨which, ?_, open_⟩
      rw [List.getElem?_append_left (List.getElem?_eq_some_iff.1 call).1]
      exact call
    · exact forall_append sound.calls good
  unfold ResponseBuffer.lookup
  cases found : tryPopLocked tx s.messages with
  | none => exact appended _ _ (by simp [WaitCall.Sound])
  | some out =>
    obtain ⟨_, _, _, _, hit, _⟩ := tryPopLocked_some (Prod.eta out ▸ found)
    exact appended _ _ (by simp [WaitCall.Sound, hit])

theorem Sound.register (sound : s.Sound) {i : Nat} (taken : s.register i = some t) : t.Sound := by
  obtain ⟨tx, result, call, ⟨j, waiting, rfl⟩ | ⟨nobody, rfl⟩⟩ := register_cases taken
  · have good := sound.call call
    have rejected : WaitCall.Sound ⟨tx, .returned none, result⟩ :=
      ⟨good.1, by intro m h; cases h⟩
    refine sound.set_call rejected fun tx' j' h => ⟨h, ?_⟩
    rintro rfl
    obtain ⟨which, call', -⟩ := sound.registered tx' j' h
    rw [call] at call'
    cases call'
  · have good := sound.call call
    obtain rfl : result = none := good.2
    have len : i < s.calls.length := (List.getElem?_eq_some_iff.1 call).1
    constructor
    · intro tx' j h
      by_cases same : tx' = tx
      · subst same
        simp only [Function.update_self, Option.some.injEq] at h
        subst h
        exact ⟨none, by simp [List.getElem?_set_self len], by simp⟩
      · simp only [Function.update_of_ne same] at h
        obtain ⟨which, call', open_⟩ := sound.registered tx' j h
        refine ⟨which, ?_, open_⟩
        rw [List.getElem?_set_ne]
        · exact call'
        · rintro rfl
          rw [call] at call'
          cases call'
    · have suspended : WaitCall.Sound ⟨tx, .suspended none, none⟩ := ⟨good.1, rfl⟩
      exact forall_set sound.calls suspended

theorem Sound.timeout (sound : s.Sound) {i : Nat} (taken : s.timeout i = some t) : t.Sound := by
  obtain ⟨tx, result, call, rfl⟩ := timeout_cases taken
  have good := sound.call call
  obtain rfl : result = none := good.2
  have len : i < s.calls.length := (List.getElem?_eq_some_iff.1 call).1
  constructor
  · intro tx' j waiting
    obtain ⟨which, call', open_⟩ := sound.registered tx' j waiting
    by_cases same : j = i
    · subst same
      rw [call] at call'
      obtain ⟨rfl, rfl⟩ : tx = tx' ∧ none = which := by simpa using call'
      exact ⟨some .timeout, by simp [List.getElem?_set_self len], by simp⟩
    · refine ⟨which, ?_, open_⟩
      rw [List.getElem?_set_ne (Ne.symm same)]
      exact call'
  · have fired : WaitCall.Sound ⟨tx, .suspended (some .timeout), none⟩ := ⟨good.1, trivial⟩
    exact forall_set sound.calls fired

theorem Sound.resume (sound : s.Sound) {i : Nat} (taken : s.resume i = some t) : t.Sound := by
  obtain ⟨tx, which, result, call, rfl⟩ := resume_cases taken
  have good := sound.call call
  have moved : WaitCall.Sound
      ⟨tx, .returned (if which = .signal then result else none), result⟩ := by
    refine ⟨good.1, ?_⟩
    intro m returned
    cases which with
    | signal => exact good.1 m returned
    | timeout => cases returned
  exact sound.set_call moved fun tx' j => sound.erased call

/-! ## Quiet -/

theorem Quiet.push (quiet : s.Quiet) (m : ResponseMessage) : (s.push m).Quiet := by
  intro tx i waiting m' mem
  cases h : s.waiters m.transaction with
  | none =>
    rw [push_buffered h] at waiting mem
    rcases List.mem_append.1 mem with mem | mem
    · exact quiet tx i waiting m' mem
    · rintro rfl
      rw [List.mem_singleton.1 mem, h] at waiting
      cases waiting
  | some j =>
    simp only [ResponseBuffer.push, h] at waiting mem
    by_cases same : tx = m.transaction
    · subst same
      simp at waiting
    · simp only [Function.update_of_ne same] at waiting
      exact quiet tx i waiting m' mem

theorem Quiet.lookup (quiet : s.Quiet) (tx : String) : (s.lookup tx).Quiet := by
  intro tx' i waiting m mem
  unfold ResponseBuffer.lookup at waiting mem
  cases found : tryPopLocked tx s.messages with
  | none =>
    rw [found] at waiting mem
    exact quiet tx' i waiting m mem
  | some out =>
    obtain ⟨before, after, split, rest, -⟩ := tryPopLocked_some (Prod.eta out ▸ found)
    rw [found] at waiting mem
    refine quiet tx' i waiting m ?_
    simp only [rest, List.mem_append] at mem
    rw [split]
    rcases mem with mem | mem
    · exact List.mem_append_left _ mem
    · exact List.mem_append_right _ (List.mem_cons_of_mem _ mem)

/-- A registration keeps the buffer quiet when no message of its transaction is there. -/
theorem Quiet.register (quiet : s.Quiet) {i : Nat} (taken : s.register i = some t)
    (clear : ∀ c, s.calls[i]? = some c → s.waiters c.transaction = none →
      ∀ m ∈ s.messages, m.transaction ≠ c.transaction) : t.Quiet := by
  obtain ⟨tx, result, call, ⟨j, -, rfl⟩ | ⟨nobody, rfl⟩⟩ := register_cases taken
  · exact quiet
  · intro tx' j waiting m mem
    by_cases same : tx' = tx
    · subst same
      exact clear _ call nobody m mem
    · simp only [Function.update_of_ne same] at waiting
      exact quiet tx' j waiting m mem

theorem Quiet.timeout (quiet : s.Quiet) {i : Nat} (taken : s.timeout i = some t) : t.Quiet := by
  obtain ⟨tx, result, call, rfl⟩ := timeout_cases taken
  exact quiet

theorem Quiet.resume (quiet : s.Quiet) {i : Nat} (taken : s.resume i = some t) : t.Quiet := by
  obtain ⟨tx, which, result, call, rfl⟩ := resume_cases taken
  intro tx' j waiting m mem
  by_cases same : tx' = tx
  · subst same
    simp at waiting
  · simp only [Function.update_of_ne same] at waiting
    exact quiet tx' j waiting m mem

/-! ## Runs -/

theorem Sound.racing_step (sound : s.Sound) {e : RacingEvent} (taken : racing.step s e = some t) :
    t.Sound := by
  cases e with
  | push m => exact Option.some.inj taken ▸ sound.push m
  | lookup tx => exact Option.some.inj taken ▸ sound.lookup tx
  | register i => exact sound.register taken
  | timeout i => exact sound.timeout taken
  | resume i => exact sound.resume taken

/-- Every run, serialised or not, keeps registrations and calls in agreement. -/
theorem sound_of_racing {es : List RacingEvent} (run : racing.Run es s) : s.Sound :=
  run.invariant Sound.empty fun _ _ _ sound taken => sound.racing_step taken

theorem sound_of_strand {es : List StrandEvent} (run : strand.Run es s) : s.Sound :=
  sound_of_racing (strand_run_racing run)

theorem Sound.strand_step (sound : s.Sound) {e : StrandEvent} (taken : strand.step s e = some t) :
    t.Sound :=
  Machine.exec_invariant (fun _ _ _ sound taken => Sound.racing_step sound taken) sound
    (strand_step_racing taken)

/-- Under the strand a call registers only when its lookup has just found nothing. -/
theorem Quiet.strand_step (quiet : s.Quiet) {e : StrandEvent} (taken : strand.step s e = some t) :
    t.Quiet := by
  cases e with
  | push m => exact Option.some.inj taken ▸ quiet.push m
  | wait tx =>
    simp only [strand, waitForTransaction] at taken
    cases found : tryPopLocked tx s.messages with
    | some out =>
      simp only [found, Option.some.injEq] at taken
      exact taken ▸ quiet.lookup tx
    | none =>
      simp only [found] at taken
      refine (quiet.lookup tx).register taken ?_
      intro c call _ m mem
      have looking : s.lookup tx =
          { s with calls := s.calls ++ [⟨tx, .looking, none⟩] } := by
        simp [ResponseBuffer.lookup, found]
      rw [looking] at call mem
      simp only [List.getElem?_append_right (Nat.le_refl _), Nat.sub_self,
        List.getElem?_cons_zero, Option.some.injEq] at call
      subst call
      exact tryPopLocked_none.1 found m mem
  | timeout i => exact quiet.timeout taken
  | resume i => exact quiet.resume taken

theorem quiet_of_strand {es : List StrandEvent} (run : strand.Run es s) : s.Quiet :=
  run.invariant Quiet.empty fun _ _ _ quiet taken => quiet.strand_step taken

end ResponseBuffer

end Lynks.Janus
