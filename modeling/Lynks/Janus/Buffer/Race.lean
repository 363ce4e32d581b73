import Lynks.Janus.Buffer.Invariant

/-!
# The check and the registration as two steps

`co_await dispatch(strand, use_awaitable)` passes through the strand and resumes the coroutine
on its own executor, so `try_pop_locked` and `waiters.emplace` are steps of the context thread
and a push on the strand can fall between them. `noMissed_iff` says when it shows: a call then
waits for a message that is already in the buffer. Under the strand it cannot
(`noMissed_of_strand`).
-/

namespace Lynks.Janus
set_option autoImplicit false

open Lib

namespace ResponseBuffer

variable {s t : ResponseBuffer}

/-- No call waits under a transaction that has a message in the buffer. -/
def NoMissed (s : ResponseBuffer) : Prop :=
  ∀ i c, s.calls[i]? = some c → c.stage = .suspended none → c.result = none →
    s.waiters c.transaction = some i → ∀ m ∈ s.messages, m.transaction ≠ c.transaction

/-- The step does not register a call after a message of its transaction came in. -/
def registersUnmissed (s : ResponseBuffer) : RacingEvent → Bool
  | .register i =>
    s.calls[i]?.all fun c =>
      (s.waiters c.transaction).isSome || s.messages.all (·.transaction != c.transaction)
  | _ => true

theorem Quiet.noMissed (quiet : s.Quiet) : s.NoMissed :=
  fun i c _ _ _ waiting => quiet c.transaction i waiting

theorem Quiet.racing_step (quiet : s.Quiet) {e : RacingEvent}
    (guard : registersUnmissed s e = true) (taken : racing.step s e = some t) : t.Quiet := by
  cases e with
  | push m => exact Option.some.inj taken ▸ quiet.push m
  | lookup tx => exact Option.some.inj taken ▸ quiet.lookup tx
  | register i =>
    refine quiet.register taken fun c call nobody m mem => ?_
    simp only [registersUnmissed, call, Option.all_some, nobody, Option.isSome_none,
      Bool.false_or, List.all_eq_true, bne_iff_ne] at guard
    exact guard m mem
  | timeout i => exact quiet.timeout taken
  | resume i => exact quiet.resume taken

/-- A call that registers too late waits for a message that has come. -/
theorem missed_registration (sound : s.Sound) {e : RacingEvent}
    (unguarded : ¬ registersUnmissed s e = true) (taken : racing.step s e = some t) :
    ¬ t.NoMissed := by
  intro all
  cases e with
  | register i =>
    obtain ⟨tx, result, call, ⟨j, waiting, -⟩ | ⟨nobody, rfl⟩⟩ := register_cases taken
    · simp [registersUnmissed, call, waiting] at unguarded
    · simp only [registersUnmissed, call, Option.all_some, nobody, Option.isSome_none,
        Bool.false_or, List.all_eq_true, bne_iff_ne, not_forall, not_not] at unguarded
      obtain ⟨m, mem, hit⟩ := unguarded
      obtain rfl : result = none := (sound.call call).2
      have len : i < s.calls.length := (List.getElem?_eq_some_iff.1 call).1
      refine all i ⟨tx, .suspended none, none⟩ ?_ rfl rfl ?_ m mem hit
      · exact List.getElem?_set_self len
      · exact Function.update_self _ _ _
  | push m => simp [registersUnmissed] at unguarded
  | lookup tx => simp [registersUnmissed] at unguarded
  | timeout i => simp [registersUnmissed] at unguarded
  | resume i => simp [registersUnmissed] at unguarded

/-- **No call waits for a buffered message exactly when no call registers after a message of
its transaction came in between its lookup and its registration.** -/
theorem noMissed_iff {es : List RacingEvent} (run : racing.Run es s) :
    racing.Always NoMissed es ↔ racing.Guarded (fun s e => registersUnmissed s e = true) es := by
  refine Machine.always_iff_guarded (I := fun s => Sound s ∧ Quiet s)
    ⟨Sound.empty, Quiet.empty⟩ ?_ ?_ ?_ run
  · rintro s e t ⟨sound, quiet⟩ guard taken
    exact ⟨sound.racing_step taken, quiet.racing_step guard taken⟩
  · rintro s ⟨-, quiet⟩
    exact quiet.noMissed
  · rintro s e t ⟨sound, -⟩ unguarded taken
    exact missed_registration sound unguarded taken

/-- The push comes between the lookup and the registration. -/
def missedAnswer : List RacingEvent :=
  [.lookup "a", .push ⟨"event", "a", "answer"⟩, .register 0]

/-- The call waits, registered, with its message in the buffer. -/
theorem answer_missed : ∃ s, racing.Run missedAnswer s ∧ s.waiters "a" = some 0 ∧
    s.messages = [⟨"event", "a", "answer"⟩] ∧ ¬ s.NoMissed := by
  refine ⟨_, rfl, rfl, rfl, fun all => ?_⟩
  exact all 0 ⟨"a", .suspended none, none⟩ rfl rfl rfl rfl _ (List.mem_singleton.2 rfl) rfl

/-- The push comes after the registration. -/
def caughtAnswer : List RacingEvent :=
  [.lookup "a", .register 0, .push ⟨"event", "a", "answer"⟩, .resume 0]

theorem noMissed_iff_caughtAnswer : racing.Always NoMissed caughtAnswer := by
  have ran : ∃ s, racing.Run caughtAnswer s := ⟨_, rfl⟩
  obtain ⟨s, run⟩ := ran
  exact (noMissed_iff run).2 (Machine.guarded_of_check (by decide))

/-- **Under the strand no call waits for a buffered message.** -/
theorem noMissed_of_strand {es : List StrandEvent} (run : strand.Run es s) : s.NoMissed :=
  (quiet_of_strand run).noMissed

end ResponseBuffer

end Lynks.Janus
