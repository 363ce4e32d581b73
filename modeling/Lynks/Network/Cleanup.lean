import Lynks.Network.SessionRuns

/-!
# The cleanup thread

`cleanup_task` with its waits, and the logins it serves. A refused `new_session` has left the
lock when it sets `panic_clean` and notifies, and the thread tests and clears the flag in steps
of their own; it holds the lock from the return of `wait_for` until it blocks again. Wake-ups
may come from a notification, from the timeout or from nothing. `sessions_run` shows that the
sessions stored are those of the coarser `SessionHandler.machine`.
-/

namespace Lynks
set_option autoImplicit false

open Lib

/-- Where the cleanup thread is. -/
inductive CleanupStage where
  /-- released by `wait_for` or just started, waiting for the lock -/
  | awake (timedOut : Bool)
  /-- in `wait_for` with the lock, about to call the predicate -/
  | testing (timedOut : Bool)
  /-- the predicate has returned false -/
  | blocking
  /-- blocked in `wait_for`, the lock released -/
  | blocked
  /-- `wait_for` has returned: a pass begins -/
  | passing
  /-- the pass has erased what was inactive, and is about to load `panic_clean` -/
  | erased
  /-- the load has returned true, and the store of false is due -/
  | clearing
  deriving DecidableEq, Repr

/-- Where a refused `new_session` is, after its critical section. -/
inductive RefusalStage where
  | refused
  /-- `panic_clean.store(true)` is done -/
  | stored
  | notified
  deriving DecidableEq, Repr

structure Refusal where
  /-- the passes begun by the end of its critical section -/
  begunBefore : Nat
  stage : RefusalStage
  deriving DecidableEq, Repr

structure Cleanup where
  /-- the sessions and `panic_clean` -/
  store : SessionHandler
  stage : CleanupStage
  begun : Nat
  /-- the passes that have erased what was inactive -/
  cleaned : Nat
  refusals : List Refusal

inductive CleanupEvent where
  /-- the critical section of an operation other than a pass -/
  | critical (op : SessionHandler.Op)
  /-- the `i`-th refused call sets the flag -/
  | storeFlag (i : Nat)
  /-- it calls `notify_one` -/
  | notifyOne (i : Nat)
  /-- a wake-up that no notification caused -/
  | wake (timedOut : Bool)
  | acquire
  | test
  | block
  | erase (nows : List UInt64)
  | loadFlag
  | clearFlag
  deriving DecidableEq, Repr

namespace CleanupStage

/-- The thread holds `mtx`. -/
def holdsLock : CleanupStage → Bool
  | .awake _ => false
  | .blocked => false
  | _ => true

end CleanupStage

namespace Cleanup

/-- The critical section of `session_handler::new_session`. A refusal leaves the store alone,
and its call goes on. -/
def newSession (s : Cleanup) (username generated : String) (now : UInt64) : Cleanup :=
  if s.store.sessions.length < s.store.maxSessions.toNat then
    { s with store := (s.store.newSession username generated now).1 }
  else { s with refusals := s.refusals ++ [⟨s.begun, .refused⟩] }

/-- A critical section under `mtx`. -/
def critical (s : Cleanup) (op : SessionHandler.Op) : Option Cleanup :=
  if s.stage.holdsLock then none
  else match op with
  | .newSession username generated now => some (s.newSession username generated now)
  | .cleanup _ => none
  | op => (s.store.step op).map fun store => { s with store }

/-- `panic_clean.store(true)` in `session_handler::clean_inactive_sessions`. -/
def storeFlag (s : Cleanup) (i : Nat) : Option Cleanup :=
  match s.refusals[i]? with
  | some ⟨begunBefore, .refused⟩ =>
    some { s with
      store := s.store.cleanInactiveSessions
      refusals := s.refusals.set i ⟨begunBefore, .stored⟩ }
  | _ => none

/-- `cv.notify_one`. -/
def notifyOne (s : Cleanup) (i : Nat) : Option Cleanup :=
  match s.refusals[i]? with
  | some ⟨begunBefore, .stored⟩ =>
    some { s with
      stage := if s.stage = .blocked then .awake false else s.stage
      refusals := s.refusals.set i ⟨begunBefore, .notified⟩ }
  | _ => none

/-- The thread goes on, without touching the store. -/
def move (s : Cleanup) (source target : CleanupStage) : Option Cleanup :=
  if s.stage = source then some { s with stage := target } else none

/-- The predicate of `wait_for` is called. It returns, to the next pass, once the flag is set or
the time is over. -/
def test (s : Cleanup) : Option Cleanup :=
  match s.stage with
  | .testing timedOut =>
    if s.store.panicClean || timedOut then
      some { s with stage := .passing, begun := s.begun + 1 }
    else some { s with stage := .blocking }
  | _ => none

/-- The erasure of a pass: `remove_if`, one reading for each session. -/
def erase (s : Cleanup) (nows : List UInt64) : Option Cleanup :=
  if s.stage = .passing ∧ nows.length = s.store.sessions.length then
    some { s with
      store := { s.store.cleanupPass nows with panicClean := s.store.panicClean }
      stage := .erased
      cleaned := s.cleaned + 1 }
  else none

/-- `if (panic_clean)`, at the end of a pass. -/
def loadFlag (s : Cleanup) : Option Cleanup :=
  s.move .erased (if s.store.panicClean then .clearing else .testing false)

/-- `panic_clean.store(false)`. -/
def clearFlag (s : Cleanup) : Option Cleanup :=
  if s.stage = .clearing then
    some { s with store := { s.store with panicClean := false }, stage := .testing false }
  else none

def step (s : Cleanup) : CleanupEvent → Option Cleanup
  | .critical op => s.critical op
  | .storeFlag i => s.storeFlag i
  | .notifyOne i => s.notifyOne i
  | .wake timedOut => s.move .blocked (.awake timedOut)
  | .acquire =>
    match s.stage with
    | .awake timedOut => some { s with stage := .testing timedOut }
    | _ => none
  | .test => s.test
  | .block => s.move .blocking .blocked
  | .erase nows => s.erase nows
  | .loadFlag => s.loadFlag
  | .clearFlag => s.clearFlag

/-- The session handler from its constructor on, its thread just started. -/
def machine (maxSessions : UInt16) : Machine Cleanup CleanupEvent where
  init :=
    { store := .new maxSessions, stage := .awake false, begun := 0, cleaned := 0, refusals := [] }
  step := step

/-! ## What a step does -/

variable {s t : Cleanup}

theorem move_cases {source target : CleanupStage} (taken : s.move source target = some t) :
    s.stage = source ∧ t = { s with stage := target } := by
  obtain ⟨here, moved⟩ := Option.ite_none_right_eq_some.1 taken
  exact ⟨here, (Option.some.inj moved).symm⟩

/-- A critical section changes the sessions as the operation does, or adds a refusal. -/
theorem critical_cases {op : SessionHandler.Op} (taken : s.critical op = some t) :
    s.stage.holdsLock = false ∧
      ((∃ store, s.store.step op = some store ∧ store.panicClean = s.store.panicClean ∧
          t = { s with store }) ∨
        (∃ username generated now, op = .newSession username generated now) ∧
          s.store.maxSessions.toNat ≤ s.store.sessions.length ∧
          t = { s with refusals := s.refusals ++ [⟨s.begun, .refused⟩] }) := by
  obtain ⟨free, moved⟩ := Option.ite_none_left_eq_some.1 taken
  refine ⟨Bool.eq_false_iff.2 free, ?_⟩
  cases op with
  | newSession username generated now =>
    obtain rfl := Option.some.inj moved
    unfold newSession
    split
    · rename_i room
      refine Or.inl ⟨_, rfl, ?_, rfl⟩
      simp [SessionHandler.newSession, room]
    · rename_i full
      exact Or.inr ⟨⟨username, generated, now, rfl⟩, Nat.le_of_not_lt full, rfl⟩
  | validateSession token now refreshed =>
    exact Or.inl ⟨_, rfl, rfl, (Option.some.inj moved).symm⟩
  | getUsernameByToken token now => exact Or.inl ⟨_, rfl, rfl, (Option.some.inj moved).symm⟩
  | cleanup nows => cases moved

theorem storeFlag_cases {i : Nat} (taken : s.storeFlag i = some t) :
    ∃ begunBefore, s.refusals[i]? = some ⟨begunBefore, .refused⟩ ∧ t = { s with
      store := s.store.cleanInactiveSessions
      refusals := s.refusals.set i ⟨begunBefore, .stored⟩ } := by
  unfold storeFlag at taken
  split at taken
  · rename_i begunBefore found
    exact ⟨begunBefore, found, (Option.some.inj taken).symm⟩
  · cases taken

theorem notifyOne_cases {i : Nat} (taken : s.notifyOne i = some t) :
    ∃ begunBefore, s.refusals[i]? = some ⟨begunBefore, .stored⟩ ∧ t = { s with
      stage := if s.stage = .blocked then .awake false else s.stage
      refusals := s.refusals.set i ⟨begunBefore, .notified⟩ } := by
  unfold notifyOne at taken
  split at taken
  · rename_i begunBefore found
    exact ⟨begunBefore, found, (Option.some.inj taken).symm⟩
  · cases taken

theorem test_cases (taken : s.test = some t) :
    ∃ timedOut, s.stage = .testing timedOut ∧
      (t = { s with stage := .passing, begun := s.begun + 1 } ∨
        t = { s with stage := .blocking }) := by
  unfold test at taken
  split at taken
  · rename_i timedOut here
    refine ⟨timedOut, here, ?_⟩
    split at taken
    · exact Or.inl (Option.some.inj taken).symm
    · exact Or.inr (Option.some.inj taken).symm
  · cases taken

/-! ## Refusals -/

/-- The passes are counted, and each refusal in order: it came before the next pass that
erases, and once it has set the flag, the flag is set or such a pass has erased. -/
structure Serves (s : Cleanup) : Prop where
  counted : s.begun = s.cleaned + if s.stage = .passing then 1 else 0
  earlier : ∀ r ∈ s.refusals, r.begunBefore ≤ s.cleaned
  erased : s.stage = .erased ∨ s.stage = .clearing → ∀ r ∈ s.refusals, r.begunBefore < s.cleaned
  served : ∀ r ∈ s.refusals, r.stage ≠ .refused →
    s.store.panicClean = true ∨ r.begunBefore < s.cleaned

/-- The thread goes on outside a pass. -/
theorem Serves.move (serves : s.Serves) {target : CleanupStage} (source : s.stage ≠ .passing)
    (outside : target ≠ .passing ∧ target ≠ .erased ∧ target ≠ .clearing) :
    Serves { s with stage := target } where
  counted := by simpa [source, outside.1] using serves.counted
  earlier := serves.earlier
  erased := by simp [outside.2]
  served := serves.served

theorem Serves.critical (serves : s.Serves) {op : SessionHandler.Op}
    (taken : s.critical op = some t) : t.Serves := by
  obtain ⟨free, ⟨store, -, flag, rfl⟩ | ⟨-, -, rfl⟩⟩ := critical_cases taken
  · exact { serves with served := fun r mem set => flag ▸ serves.served r mem set }
  · have stage : s.stage ≠ .passing ∧ ¬ (s.stage = .erased ∨ s.stage = .clearing) := by
      constructor
      · intro here
        rw [here] at free
        cases free
      · rintro (here | here) <;>
        · rw [here] at free
          cases free
    have level : s.begun = s.cleaned := by simpa [stage.1] using serves.counted
    refine ⟨serves.counted, ?_, fun inside => absurd inside stage.2, ?_⟩
    · exact forall_append serves.earlier (Nat.le_of_eq level)
    · exact forall_append serves.served fun set => absurd rfl set

theorem Serves.storeFlag (serves : s.Serves) {i : Nat} (taken : s.storeFlag i = some t) :
    t.Serves := by
  obtain ⟨begunBefore, found, rfl⟩ := storeFlag_cases taken
  have mem : ⟨begunBefore, .refused⟩ ∈ s.refusals := List.mem_of_getElem? found
  have known : begunBefore ≤ s.cleaned := serves.earlier _ mem
  refine ⟨serves.counted, ?_, fun inside => ?_, fun _ _ _ => Or.inl rfl⟩
  · exact forall_set serves.earlier known
  · have done : begunBefore < s.cleaned := serves.erased inside _ mem
    exact forall_set (serves.erased inside) done

theorem Serves.notifyOne (serves : s.Serves) {i : Nat} (taken : s.notifyOne i = some t) :
    t.Serves := by
  obtain ⟨begunBefore, found, rfl⟩ := notifyOne_cases taken
  have mem : ⟨begunBefore, .stored⟩ ∈ s.refusals := List.mem_of_getElem? found
  have set : Serves { s with refusals := s.refusals.set i ⟨begunBefore, .notified⟩ } := by
    have known : begunBefore ≤ s.cleaned := serves.earlier _ mem
    have due : s.store.panicClean = true ∨ begunBefore < s.cleaned :=
      serves.served _ mem (by simp)
    refine ⟨serves.counted, forall_set serves.earlier known, fun inside => ?_, ?_⟩
    · have done : begunBefore < s.cleaned := serves.erased inside _ mem
      exact forall_set (serves.erased inside) done
    · exact forall_set serves.served fun _ => due
  split
  · rename_i asleep
    exact set.move (by simp [asleep]) (by simp)
  · exact set

theorem Serves.test (serves : s.Serves) (taken : s.test = some t) : t.Serves := by
  obtain ⟨timedOut, here, rfl | rfl⟩ := test_cases taken
  · have level : s.begun = s.cleaned := by simpa [here] using serves.counted
    exact ⟨by simp [level], serves.earlier, by simp, serves.served⟩
  · exact serves.move (by simp [here]) (by simp)

theorem Serves.erase (serves : s.Serves) {nows : List UInt64} (taken : s.erase nows = some t) :
    t.Serves := by
  obtain ⟨⟨here, -⟩, moved⟩ := Option.ite_none_right_eq_some.1 taken
  obtain rfl := Option.some.inj moved
  -- whoever was refused before the pass began is served by this erasure
  have before : ∀ r ∈ s.refusals, r.begunBefore < s.cleaned + 1 :=
    fun r mem => Nat.lt_succ_of_le (serves.earlier r mem)
  have level : s.begun = s.cleaned + 1 := by simpa [here] using serves.counted
  exact ⟨by simpa using level, fun r mem => Nat.le_of_lt (before r mem), fun _ => before,
    fun r mem _ => Or.inr (before r mem)⟩

theorem Serves.loadFlag (serves : s.Serves) (taken : s.loadFlag = some t) : t.Serves := by
  obtain ⟨here, rfl⟩ := move_cases taken
  split
  · refine ⟨?_, serves.earlier, fun _ => serves.erased (Or.inl here), serves.served⟩
    simpa [here] using serves.counted
  · exact serves.move (by simp [here]) (by simp)

/-- Clearing the flag drops no refusal: all of them came before the pass that clears. -/
theorem Serves.clearFlag (serves : s.Serves) (taken : s.clearFlag = some t) : t.Serves := by
  obtain ⟨here, moved⟩ := Option.ite_none_right_eq_some.1 taken
  obtain rfl := Option.some.inj moved
  refine ⟨?_, serves.earlier, by simp, fun r mem _ => Or.inr ?_⟩
  · simpa [here] using serves.counted
  · exact serves.erased (Or.inr here) r mem

theorem Serves.step (serves : s.Serves) {e : CleanupEvent} (taken : s.step e = some t) :
    t.Serves := by
  cases e with
  | critical op => exact serves.critical taken
  | storeFlag i => exact serves.storeFlag taken
  | notifyOne i => exact serves.notifyOne taken
  | wake timedOut =>
    obtain ⟨here, rfl⟩ := move_cases taken
    exact serves.move (by simp [here]) (by simp)
  | acquire =>
    simp only [Cleanup.step] at taken
    split at taken
    · rename_i timedOut here
      obtain rfl := Option.some.inj taken
      exact serves.move (by simp [here]) (by simp)
    · cases taken
  | test => exact serves.test taken
  | block =>
    obtain ⟨here, rfl⟩ := move_cases taken
    exact serves.move (by simp [here]) (by simp)
  | erase nows => exact serves.erase taken
  | loadFlag => exact serves.loadFlag taken
  | clearFlag => exact serves.clearFlag taken

theorem serves {maxSessions : UInt16} {es : List CleanupEvent}
    (run : (machine maxSessions).Run es s) : s.Serves := by
  refine Machine.Run.invariant (M := machine maxSessions) ?_
    (fun s e t serves taken => serves.step taken) run
  constructor <;> simp [machine]

/-! ## The sessions -/

/-- What a step is to the sessions: a refusal counts as the operation that is refused. -/
def act (_ : Cleanup) : CleanupEvent → List SessionHandler.Op
  | .critical op => [op]
  | .erase nows => [.cleanup nows]
  | _ => []

/-- A pass over the sessions. -/
def cleans : SessionHandler.Op → Bool
  | .cleanup _ => true
  | _ => false

/-- Two stores that differ at most in the flag. -/
def SameSessions (a b : SessionHandler) : Prop :=
  a.sessions = b.sessions ∧ a.maxSessions = b.maxSessions

/-- No operation reads the flag. -/
theorem SameSessions.step {a b a' : SessionHandler} (same : SameSessions a b)
    {op : SessionHandler.Op} (taken : a.step op = some a') :
    ∃ b', b.step op = some b' ∧ SameSessions a' b' := by
  obtain ⟨sessions, limit⟩ := same
  cases op with
  | newSession username generated now =>
    obtain rfl := Option.some.inj taken
    refine ⟨_, rfl, ?_⟩
    by_cases room : b.sessions.length < b.maxSessions.toNat
    · simp [SameSessions, SessionHandler.newSession, sessions, limit, room]
    · simp [SameSessions, SessionHandler.newSession, SessionHandler.cleanInactiveSessions,
        sessions, limit, room]
  | validateSession token now refreshed =>
    obtain rfl := Option.some.inj taken
    exact ⟨_, rfl, by simp [SameSessions, SessionHandler.validateSession, sessions, limit]⟩
  | getUsernameByToken token now =>
    obtain rfl := Option.some.inj taken
    exact ⟨b, rfl, sessions, limit⟩
  | cleanup nows =>
    obtain ⟨counted, rfl⟩ := SessionHandler.cleanup_cases taken
    refine ⟨b.cleanupPass nows, if_pos (sessions ▸ counted), ?_⟩
    simp [SameSessions, SessionHandler.cleanupPass, sessions, limit]

/-- A step does to the sessions what its operation does. -/
theorem sessions_step {e : CleanupEvent} {b : SessionHandler} (same : SameSessions s.store b)
    (taken : s.step e = some t) {maxSessions : UInt16} :
    ∃ b', (SessionHandler.machine maxSessions).exec b (act s e) = some b' ∧
      SameSessions t.store b' := by
  have still (unchanged : t.store.sessions = s.store.sessions ∧
      t.store.maxSessions = s.store.maxSessions) : SameSessions t.store b :=
    ⟨unchanged.1.trans same.1, unchanged.2.trans same.2⟩
  have once {op : SessionHandler.Op} {b' : SessionHandler} (moved : b.step op = some b') :
      (SessionHandler.machine maxSessions).exec b [op] = some b' := by
    simp [Machine.exec, SessionHandler.machine, moved]
  cases e with
  | critical op =>
    obtain ⟨-, ⟨store, stepped, -, rfl⟩ | ⟨⟨username, generated, now, rfl⟩, full, rfl⟩⟩ :=
      critical_cases taken
    · obtain ⟨b', moved, same'⟩ := same.step stepped
      exact ⟨b', once moved, same'⟩
    · have refused : (b.newSession username generated now).1 = b.cleanInactiveSessions := by
        rw [same.1, same.2] at full
        simp [SessionHandler.newSession, Nat.not_lt_of_le full]
      exact ⟨_, once rfl, refused ▸ same⟩
  | erase nows =>
    obtain ⟨⟨-, counted⟩, moved⟩ := Option.ite_none_right_eq_some.1 taken
    obtain rfl := Option.some.inj moved
    have pass : s.store.step (.cleanup nows) = some (s.store.cleanupPass nows) := if_pos counted
    obtain ⟨b', moved, same'⟩ := same.step pass
    exact ⟨b', once moved, same'⟩
  | storeFlag i =>
    obtain ⟨begunBefore, -, rfl⟩ := storeFlag_cases taken
    exact ⟨b, rfl, still ⟨rfl, rfl⟩⟩
  | notifyOne i =>
    obtain ⟨begunBefore, -, rfl⟩ := notifyOne_cases taken
    exact ⟨b, rfl, still ⟨rfl, rfl⟩⟩
  | wake timedOut =>
    obtain ⟨-, rfl⟩ := move_cases taken
    exact ⟨b, rfl, still ⟨rfl, rfl⟩⟩
  | acquire =>
    simp only [Cleanup.step] at taken
    split at taken
    · obtain rfl := Option.some.inj taken
      exact ⟨b, rfl, still ⟨rfl, rfl⟩⟩
    · cases taken
  | test =>
    obtain ⟨timedOut, -, rfl | rfl⟩ := test_cases taken <;>
      exact ⟨b, rfl, still ⟨rfl, rfl⟩⟩
  | block =>
    obtain ⟨-, rfl⟩ := move_cases taken
    exact ⟨b, rfl, still ⟨rfl, rfl⟩⟩
  | loadFlag =>
    obtain ⟨-, rfl⟩ := move_cases taken
    exact ⟨b, rfl, still ⟨rfl, rfl⟩⟩
  | clearFlag =>
    obtain ⟨-, moved⟩ := Option.ite_none_right_eq_some.1 taken
    obtain rfl := Option.some.inj moved
    exact ⟨b, rfl, still ⟨rfl, rfl⟩⟩

/-- **The sessions stored are those of a run of the operations alone.** -/
theorem sessions_run {maxSessions : UInt16} {es : List CleanupEvent}
    (run : (machine maxSessions).Run es s) :
    ∃ b, (SessionHandler.machine maxSessions).Run ((machine maxSessions).log act es) b ∧
      SameSessions s.store b :=
  run.simulate (N := SessionHandler.machine maxSessions)
    (R := fun s b => SameSessions s.store b) (k := act) ⟨rfl, rfl⟩
    fun _ _ _ _ same taken => sessions_step same taken

/-- A step erases if and only if it is a pass over the sessions. -/
theorem cleaned_step {e : CleanupEvent} (taken : s.step e = some t) :
    t.cleaned = s.cleaned + ((act s e).filter cleans).length := by
  cases e with
  | critical op =>
    obtain ⟨-, moved⟩ := Option.ite_none_left_eq_some.1 taken
    obtain ⟨-, ⟨store, -, -, rfl⟩ | ⟨-, -, rfl⟩⟩ := critical_cases taken <;>
      cases op <;> first | rfl | cases moved
  | erase nows =>
    obtain ⟨-, moved⟩ := Option.ite_none_right_eq_some.1 taken
    obtain rfl := Option.some.inj moved
    rfl
  | storeFlag i =>
    obtain ⟨begunBefore, -, rfl⟩ := storeFlag_cases taken
    rfl
  | notifyOne i =>
    obtain ⟨begunBefore, -, rfl⟩ := notifyOne_cases taken
    rfl
  | wake timedOut =>
    obtain ⟨-, rfl⟩ := move_cases taken
    rfl
  | acquire =>
    simp only [Cleanup.step] at taken
    split at taken
    · obtain rfl := Option.some.inj taken
      rfl
    · cases taken
  | test => obtain ⟨timedOut, -, rfl | rfl⟩ := test_cases taken <;> rfl
  | block =>
    obtain ⟨-, rfl⟩ := move_cases taken
    rfl
  | loadFlag =>
    obtain ⟨-, rfl⟩ := move_cases taken
    rfl
  | clearFlag =>
    obtain ⟨-, moved⟩ := Option.ite_none_right_eq_some.1 taken
    obtain rfl := Option.some.inj moved
    rfl

/-- What is counted as cleaned are the passes over the sessions. -/
theorem cleaned_eq {maxSessions : UInt16} {es : List CleanupEvent}
    (run : (machine maxSessions).Run es s) :
    s.cleaned = (((machine maxSessions).log act es).filter cleans).length := by
  refine Machine.Run.induct (M := machine maxSessions) (I := fun es s =>
    s.cleaned = (((machine maxSessions).log act es).filter cleans).length) rfl ?_ run
  intro es s e t run ih taken
  rw [Machine.log_snoc run, List.filter_append, List.length_append, ← ih]
  exact cleaned_step taken

/-! ## No refusal goes unserved -/

/-- **No refusal goes unserved.** Once a refused `new_session` has set the flag, either the flag
is still set, or a pass that began after its critical section has begun, and has erased what was
inactive: the passes counted are those over the sessions stored. -/
theorem refusal_served {maxSessions : UInt16} {es : List CleanupEvent}
    (run : (machine maxSessions).Run es s) :
    (∀ r ∈ s.refusals, r.stage ≠ .refused → s.store.panicClean = true ∨
      r.begunBefore < s.begun ∧ r.begunBefore < s.cleaned) ∧
    s.cleaned = (((machine maxSessions).log act es).filter cleans).length ∧
    ∃ b, (SessionHandler.machine maxSessions).Run ((machine maxSessions).log act es) b ∧
      SameSessions s.store b := by
  refine ⟨fun r mem set => ?_, cleaned_eq run, sessions_run run⟩
  have inv : s.Serves := serves run
  rcases inv.served r mem set with flag | done
  · exact Or.inl flag
  · have begun : s.cleaned ≤ s.begun := by
      rw [inv.counted]
      exact Nat.le_add_right _ _
    exact Or.inr ⟨Nat.lt_of_lt_of_le done begun, done⟩

/-- A refusal sets the flag after the pass and before the clear. -/
def lateFlag : List CleanupEvent :=
  [.critical (.newSession "alice" "t1" 1000), .critical (.newSession "bob" "t2" 2000),
    .critical (.newSession "carol" "t3" 2000), .storeFlag 0, .acquire, .test, .erase [2000],
    .loadFlag, .storeFlag 1, .clearFlag, .test, .block]

theorem refusal_served_lateFlag : ∃ s, (machine 1).Run lateFlag s ∧
    (∀ r ∈ s.refusals, r.stage ≠ .refused → s.store.panicClean = true ∨
      r.begunBefore < s.begun ∧ r.begunBefore < s.cleaned) ∧ s.cleaned = 1 := by
  obtain ⟨s, run⟩ : ∃ s, (machine 1).Run lateFlag s := ⟨_, rfl⟩
  obtain ⟨served, counted, -⟩ := refusal_served run
  exact ⟨s, run, served, counted⟩

end Cleanup

end Lynks
