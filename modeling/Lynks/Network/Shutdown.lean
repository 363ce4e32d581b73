import Lynks.Network.Cleanup

/-!
# The end of the cleanup thread

`~session_handler` sets `clean` to false without the lock, notifies, and joins the thread, which
loads the flag at the head of its loop, in the predicate of `wait_for` and after `wait_for`. Until
the destructor begins, the runs are those of `Cleanup` (`cleanup_of_alive`). From then on at most
the pass that has begun is finished (`shutdown_finishes_one_pass`) and the thread ends within six
steps of its own, however they interleave with the destructor's (`cleanup_thread_ends`). One of
these may be a wait for the timeout: `never_asleep_iff` says exactly when `notify_all` is missed.
-/

namespace Lynks
set_option autoImplicit false

open Lib

/-- A load of `clean` by the cleanup thread. -/
inductive Load where
  /-- `while(clean)` -/
  | loopHead
  /-- `!clean`, in the predicate of `wait_for` -/
  | predicate
  /-- `if (!clean) break` -/
  | afterWait
  deriving DecidableEq, Repr

/-- How far `~session_handler` is. -/
inductive DestructorStage where
  | alive
  /-- `clean.store(false)` is done -/
  | stored
  /-- `cv.notify_all` is done -/
  | notified
  | joined
  deriving DecidableEq, Repr

structure Shutdown where
  core : Cleanup
  /-- the load of `clean` that comes before anything else the thread does with the lock -/
  load : Option Load
  clean : Bool
  /-- `cleanup_task` has returned -/
  ended : Bool
  destructor : DestructorStage

inductive ShutdownEvent where
  | cleanup (e : CleanupEvent)
  | loadClean
  | storeClean
  | notifyAll
  | join
  deriving DecidableEq, Repr

namespace CleanupEvent

/-- A step of a call of the session handler. -/
def byCaller : CleanupEvent → Bool
  | critical _ => true
  | storeFlag _ => true
  | notifyOne _ => true
  | _ => false

/-- A step of the thread after the loads of `clean` that come before it. -/
def loaded : CleanupEvent → Bool
  | test => true
  | block => true
  | erase _ => true
  | loadFlag => true
  | clearFlag => true
  | _ => false

end CleanupEvent

/-- A step of the thread, or its wake-up. -/
def ShutdownEvent.byThread : ShutdownEvent → Bool
  | cleanup e => !e.byCaller
  | loadClean => true
  | _ => false

namespace Shutdown

/-- The load that is due after a step that leads to `stage`. -/
def loadAfter (load : Option Load) : CleanupEvent → CleanupStage → Option Load
  | .test, .passing => some .afterWait
  | .block, _ => some .predicate
  | .loadFlag, .testing _ => some .loopHead
  | .clearFlag, _ => some .loopHead
  | _, _ => load

/-- A step of the cleanup, with the flag. Nobody calls a session handler that is destroyed. -/
def cleanup (s : Shutdown) (e : CleanupEvent) : Option Shutdown :=
  if s.ended = true ∨ (e.byCaller = true ∧ s.destructor ≠ .alive) ∨
      (e.loaded = true ∧ s.load ≠ none) then none
  else (s.core.step e).map fun core => { s with core, load := loadAfter s.load e core.stage }

/-- The thread loads `clean`. Where it is false the loop is over, or the predicate true. -/
def loadClean (s : Shutdown) : Option Shutdown :=
  if s.ended then none
  else match s.load, s.core.stage with
  | some .loopHead, .testing _ =>
    some (if s.clean then { s with load := some .predicate } else { s with ended := true })
  | some .predicate, .testing _ =>
    some (if s.clean then { s with load := none } else
      { s with
        core := { s.core with stage := .passing, begun := s.core.begun + 1 }
        load := some .afterWait })
  | some .afterWait, .passing =>
    some (if s.clean then { s with load := none } else { s with ended := true })
  | _, _ => none

/-- `clean.store(false)`. -/
def storeClean (s : Shutdown) : Option Shutdown :=
  if s.destructor = .alive then some { s with clean := false, destructor := .stored } else none

/-- `cv.notify_all`. -/
def notifyAll (s : Shutdown) : Option Shutdown :=
  if s.destructor = .stored then
    some { s with
      core := { s.core with
        stage := if s.core.stage = .blocked then .awake false else s.core.stage }
      destructor := .notified }
  else none

/-- `cleanup_thread.join` returns. -/
def join (s : Shutdown) : Option Shutdown :=
  if s.destructor = .notified ∧ s.ended = true then some { s with destructor := .joined } else none

def step (s : Shutdown) : ShutdownEvent → Option Shutdown
  | .cleanup e => s.cleanup e
  | .loadClean => s.loadClean
  | .storeClean => s.storeClean
  | .notifyAll => s.notifyAll
  | .join => s.join

/-- The session handler from its constructor to the end of its destructor. -/
def machine (maxSessions : UInt16) : Machine Shutdown ShutdownEvent where
  init :=
    { core := (Cleanup.machine maxSessions).init
      load := some .loopHead
      clean := true
      ended := false
      destructor := .alive }
  step := step

variable {s t : Shutdown}

/-! ## What a step does -/

theorem cleanup_cases {e : CleanupEvent} (taken : s.cleanup e = some t) :
    s.ended = false ∧ (e.byCaller = true → s.destructor = .alive) ∧
      (e.loaded = true → s.load = none) ∧ ∃ core, s.core.step e = some core ∧
        t = { s with core, load := loadAfter s.load e core.stage } := by
  obtain ⟨free, moved⟩ := Option.ite_none_left_eq_some.1 taken
  obtain ⟨core, stepped, rfl⟩ := Option.map_eq_some_iff.1 moved
  simp only [not_or, not_and, Classical.not_not, Bool.not_eq_true] at free
  exact ⟨free.1, free.2.1, free.2.2, core, stepped, rfl⟩

theorem loadClean_cases (taken : s.loadClean = some t) : s.ended = false ∧
    ((∃ timedOut, s.load = some .loopHead ∧ s.core.stage = .testing timedOut ∧
        t = if s.clean then { s with load := some .predicate } else { s with ended := true }) ∨
      (∃ timedOut, s.load = some .predicate ∧ s.core.stage = .testing timedOut ∧
        t = if s.clean then { s with load := none } else
          { s with
            core := { s.core with stage := .passing, begun := s.core.begun + 1 }
            load := some .afterWait }) ∨
      (s.load = some .afterWait ∧ s.core.stage = .passing ∧
        t = if s.clean then { s with load := none } else { s with ended := true })) := by
  unfold loadClean at taken
  split at taken
  · cases taken
  · rename_i running
    refine ⟨by simpa using running, ?_⟩
    split at taken
    · rename_i timedOut due here
      exact Or.inl ⟨timedOut, due, here, (Option.some.inj taken).symm⟩
    · rename_i timedOut due here
      exact Or.inr (Or.inl ⟨timedOut, due, here, (Option.some.inj taken).symm⟩)
    · rename_i due here
      exact Or.inr (Or.inr ⟨due, here, (Option.some.inj taken).symm⟩)
    · cases taken

theorem storeClean_cases (taken : s.storeClean = some t) :
    s.destructor = .alive ∧ t = { s with clean := false, destructor := .stored } := by
  obtain ⟨alive, moved⟩ := Option.ite_none_right_eq_some.1 taken
  exact ⟨alive, (Option.some.inj moved).symm⟩

theorem notifyAll_cases (taken : s.notifyAll = some t) :
    s.destructor = .stored ∧ t = { s with
      core := { s.core with
        stage := if s.core.stage = .blocked then .awake false else s.core.stage }
      destructor := .notified } := by
  obtain ⟨stored, moved⟩ := Option.ite_none_right_eq_some.1 taken
  exact ⟨stored, (Option.some.inj moved).symm⟩

theorem join_cases (taken : s.join = some t) :
    s.destructor = .notified ∧ s.ended = true ∧ t = { s with destructor := .joined } := by
  obtain ⟨⟨notified, ended⟩, moved⟩ := Option.ite_none_right_eq_some.1 taken
  exact ⟨notified, ended, (Option.some.inj moved).symm⟩

/-! ## Where the thread can be -/

/-- The loads that can be due at a stage. -/
def fits : CleanupStage → Option Load → Bool
  | .awake _, some .loopHead => true
  | .awake _, some .predicate => true
  | .testing _, some .afterWait => false
  | .testing _, _ => true
  | .blocking, none => true
  | .blocked, some .predicate => true
  | .passing, none => true
  | .passing, some .afterWait => true
  | .erased, none => true
  | .clearing, none => true
  | _, _ => false

theorem fits_blocked {load : Option Load} (here : fits .blocked load = true) :
    load = some .predicate := by
  cases load with
  | none => cases here
  | some load => cases load <;> first | rfl | cases here

theorem fits_none {stage : CleanupStage} {load : Option Load} (here : fits stage load = true)
    (busy : stage = .blocking ∨ stage = .erased ∨ stage = .clearing) : load = none := by
  cases load with
  | none => rfl
  | some load => rcases busy with rfl | rfl | rfl <;> cases load <;> cases here

/-- What may be due to a thread that waits for the lock may be due when it has it. -/
theorem fits_testing {a b : Bool} {load : Option Load} (here : fits (.awake a) load = true) :
    fits (.testing b) load = true ∧ load ≠ none := by
  cases load with
  | none => cases here
  | some load => cases load <;> simp_all [fits]

/-- The flag is down once the destructor has begun, and the thread ends after that only, at a
load. -/
structure Placed (s : Shutdown) : Prop where
  fits : fits s.core.stage s.load = true
  flag : s.clean = true ↔ s.destructor = .alive
  ended : s.ended = true → s.clean = false ∧ s.load ≠ none

/-- What the steps of the thread and of its callers do to the stage. -/
theorem core_step_fits {core core' : Cleanup} {e : CleanupEvent} {load : Option Load}
    (here : fits core.stage load = true) (due : e.loaded = true → load = none)
    (taken : core.step e = some core') :
    fits core'.stage (loadAfter load e core'.stage) = true := by
  cases e with
  | critical op =>
    obtain ⟨-, ⟨store, -, -, rfl⟩ | ⟨-, -, rfl⟩⟩ := Cleanup.critical_cases taken
    · exact here
    · exact here
  | storeFlag i =>
    obtain ⟨_, -, rfl⟩ := Cleanup.storeFlag_cases taken
    exact here
  | notifyOne i =>
    obtain ⟨_, -, rfl⟩ := Cleanup.notifyOne_cases taken
    dsimp only [loadAfter]
    split
    · rename_i asleep
      rw [asleep] at here
      rw [fits_blocked here]
      rfl
    · exact here
  | wake timedOut =>
    obtain ⟨asleep, rfl⟩ := Cleanup.move_cases taken
    rw [asleep] at here
    rw [fits_blocked here]
    rfl
  | acquire =>
    simp only [Cleanup.step] at taken
    split at taken
    · rename_i timedOut awake
      obtain rfl := Option.some.inj taken
      rw [awake] at here
      exact (fits_testing here).1
    · cases taken
  | test =>
    obtain ⟨timedOut, -, rfl | rfl⟩ := Cleanup.test_cases taken
    · rfl
    · rw [due rfl]
      rfl
  | block =>
    obtain ⟨-, rfl⟩ := Cleanup.move_cases taken
    rfl
  | erase nows =>
    obtain ⟨-, moved⟩ := Option.ite_none_right_eq_some.1 taken
    obtain rfl := Option.some.inj moved
    rw [due rfl]
    rfl
  | loadFlag =>
    obtain ⟨-, rfl⟩ := Cleanup.move_cases taken
    rw [due rfl]
    dsimp only
    split <;> rfl
  | clearFlag =>
    obtain ⟨-, moved⟩ := Option.ite_none_right_eq_some.1 taken
    obtain rfl := Option.some.inj moved
    rfl

theorem Placed.step (placed : s.Placed) {e : ShutdownEvent} (taken : s.step e = some t) :
    t.Placed := by
  cases e with
  | cleanup e =>
    obtain ⟨running, -, due, core, moved, rfl⟩ := cleanup_cases taken
    refine ⟨core_step_fits placed.fits due moved, placed.flag, fun ended => ?_⟩
    rw [running] at ended
    cases ended
  | loadClean =>
    obtain ⟨running, ⟨timedOut, due, here, rfl⟩ | ⟨timedOut, due, here, rfl⟩ | ⟨due, here, rfl⟩⟩ :=
      loadClean_cases taken
    · split
      · exact ⟨by rw [here]; rfl, placed.flag, fun ended => by rw [running] at ended; cases ended⟩
      · rename_i down
        exact ⟨placed.fits, placed.flag, fun _ => ⟨by simpa using down, by simp [due]⟩⟩
    · split
      · exact ⟨by rw [here]; rfl, placed.flag, fun ended => by rw [running] at ended; cases ended⟩
      · exact ⟨rfl, placed.flag, fun ended => by rw [running] at ended; cases ended⟩
    · split
      · exact ⟨by rw [here]; rfl, placed.flag, fun ended => by rw [running] at ended; cases ended⟩
      · rename_i down
        exact ⟨placed.fits, placed.flag, fun _ => ⟨by simpa using down, by simp [due]⟩⟩
  | storeClean =>
    obtain ⟨alive, rfl⟩ := storeClean_cases taken
    refine ⟨placed.fits, by simp, fun ended => ⟨rfl, (placed.ended ended).2⟩⟩
  | notifyAll =>
    obtain ⟨stored, rfl⟩ := notifyAll_cases taken
    refine ⟨?_, ?_, placed.ended⟩
    · dsimp only
      split
      · rename_i asleep
        have here := placed.fits
        rw [asleep] at here
        rw [fits_blocked here]
        rfl
      · exact placed.fits
    · have flag := placed.flag
      rw [stored] at flag
      simpa using flag
  | join =>
    obtain ⟨notified, -, rfl⟩ := join_cases taken
    refine ⟨placed.fits, ?_, placed.ended⟩
    have flag := placed.flag
    rw [notified] at flag
    simpa using flag

theorem placed {maxSessions : UInt16} {es : List ShutdownEvent}
    (run : (machine maxSessions).Run es s) : s.Placed := by
  refine Machine.Run.invariant (M := machine maxSessions) ?_
    (fun s e t placed taken => placed.step taken) run
  exact ⟨rfl, by simp [machine], by simp [machine]⟩

/-! ## Until the destructor begins -/

/-- What a step is to the cleanup. -/
def cleanupEvent : ShutdownEvent → Option CleanupEvent
  | .cleanup e => some e
  | _ => none

/-- **Until the destructor begins** the loads of `clean` change nothing: a run is one of the
cleanup without the flag. -/
theorem cleanup_of_alive {maxSessions : UInt16} {es : List ShutdownEvent}
    (run : (machine maxSessions).Run es s) : s.destructor = .alive →
      (Cleanup.machine maxSessions).Run (es.filterMap cleanupEvent) s.core := by
  refine Machine.Run.induct (M := machine maxSessions) (I := fun es s => s.destructor = .alive →
    (Cleanup.machine maxSessions).Run (es.filterMap cleanupEvent) s.core) (fun _ => rfl) ?_ run
  intro es s e t run ih stepped alive
  have taken : s.step e = some t := stepped
  rw [List.filterMap_append]
  cases e with
  | cleanup e =>
    obtain ⟨-, -, -, core, moved, rfl⟩ := cleanup_cases taken
    have before := ih alive
    exact before.snoc moved
  | loadClean =>
    rw [show List.filterMap cleanupEvent [.loadClean] = [] from rfl, List.append_nil]
    obtain ⟨-, ⟨_, -, -, rfl⟩ | ⟨_, -, -, rfl⟩ | ⟨-, -, rfl⟩⟩ := loadClean_cases taken
    · split at alive
      · rename_i up
        rw [if_pos up]
        exact ih alive
      · rename_i down
        exact absurd ((placed run).flag.2 alive) down
    · split at alive
      · rename_i up
        rw [if_pos up]
        exact ih alive
      · rename_i down
        exact absurd ((placed run).flag.2 alive) down
    · split at alive
      · rename_i up
        rw [if_pos up]
        exact ih alive
      · rename_i down
        exact absurd ((placed run).flag.2 alive) down
  | storeClean =>
    obtain ⟨-, rfl⟩ := storeClean_cases taken
    cases alive
  | notifyAll =>
    obtain ⟨-, rfl⟩ := notifyAll_cases taken
    cases alive
  | join =>
    obtain ⟨-, -, rfl⟩ := join_cases taken
    cases alive

/-! ## From then on -/

/-- What a step does once the flag is down: each step of the thread by its stage before and
after, with the load due before and after. -/
inductive Winds (s : Shutdown) : Shutdown → Prop where
  | wake (timedOut : Bool) (here : s.core.stage = .blocked) :
      Winds s { s with core := { s.core with stage := .awake timedOut } }
  | acquire (timedOut : Bool) (here : s.core.stage = .awake timedOut) :
      Winds s { s with core := { s.core with stage := .testing timedOut } }
  | testPasses (timedOut : Bool) (here : s.core.stage = .testing timedOut) (due : s.load = none)
      (flag : s.core.store.panicClean = true ∨ timedOut = true) :
      Winds s { s with
        core := { s.core with stage := .passing, begun := s.core.begun + 1 }
        load := some .afterWait }
  | testBlocks (here : s.core.stage = .testing false) (due : s.load = none)
      (flag : s.core.store.panicClean = false) :
      Winds s { s with core := { s.core with stage := .blocking } }
  | block (here : s.core.stage = .blocking) :
      Winds s { s with core := { s.core with stage := .blocked }, load := some .predicate }
  | erase (store : SessionHandler) (here : s.core.stage = .passing) (due : s.load = none) :
      Winds s { s with core :=
        { s.core with store, stage := .erased, cleaned := s.core.cleaned + 1 } }
  | loadFlag (here : s.core.stage = .erased) :
      Winds s { s with core := { s.core with stage := .clearing } }
  | loadNoFlag (here : s.core.stage = .erased) :
      Winds s { s with core := { s.core with stage := .testing false }, load := some .loopHead }
  | clearFlag (store : SessionHandler) (here : s.core.stage = .clearing) :
      Winds s { s with
        core := { s.core with store, stage := .testing false }
        load := some .loopHead }
  | leave (due : s.load = some .loopHead ∨ s.load = some .afterWait) :
      Winds s { s with ended := true }
  | predicate (timedOut : Bool) (here : s.core.stage = .testing timedOut)
      (due : s.load = some .predicate) :
      Winds s { s with
        core := { s.core with stage := .passing, begun := s.core.begun + 1 }
        load := some .afterWait }

theorem Placed.begun (placed : s.Placed) (down : s.clean = false) : s.destructor ≠ .alive := by
  intro alive
  rw [placed.flag.2 alive] at down
  cases down

/-- What the rest of the predicate decides. -/
theorem test_decides {core core' : Cleanup} (taken : core.step .test = some core') :
    ∃ timedOut, core.stage = .testing timedOut ∧
      ((core.store.panicClean = true ∨ timedOut = true) ∧
          core' = { core with stage := .passing, begun := core.begun + 1 } ∨
        core.store.panicClean = false ∧ timedOut = false ∧
          core' = { core with stage := .blocking }) := by
  simp only [Cleanup.step, Cleanup.test] at taken
  split at taken
  · rename_i timedOut here
    refine ⟨timedOut, here, ?_⟩
    split at taken
    · rename_i either
      exact Or.inl ⟨by simpa using either, (Option.some.inj taken).symm⟩
    · rename_i neither
      simp only [Bool.or_eq_true, not_or, Bool.not_eq_true] at neither
      exact Or.inr ⟨neither.1, neither.2, (Option.some.inj taken).symm⟩
  · cases taken

/-- **What can happen once the flag is down.** -/
theorem down_cases (placed : s.Placed) (down : s.clean = false) {e : ShutdownEvent}
    (taken : s.step e = some t) :
    (e.byThread = true ∧ s.ended = false ∧ Winds s t) ∨
      (e = .notifyAll ∧ s.destructor = .stored ∧ t = { s with
        core := { s.core with
          stage := if s.core.stage = .blocked then .awake false else s.core.stage }
        destructor := .notified }) ∨
      (e = .join ∧ s.destructor = .notified ∧ s.ended = true ∧
        t = { s with destructor := .joined }) := by
  have begun := placed.begun down
  cases e with
  | cleanup e =>
    obtain ⟨running, callers, due, core, moved, rfl⟩ := cleanup_cases taken
    cases e with
    | critical op => exact absurd (callers rfl) begun
    | storeFlag i => exact absurd (callers rfl) begun
    | notifyOne i => exact absurd (callers rfl) begun
    | wake timedOut =>
      obtain ⟨here, rfl⟩ := Cleanup.move_cases moved
      exact Or.inl ⟨rfl, running, .wake timedOut here⟩
    | acquire =>
      simp only [Cleanup.step] at moved
      split at moved
      · rename_i timedOut here
        obtain rfl := Option.some.inj moved
        exact Or.inl ⟨rfl, running, .acquire timedOut here⟩
      · cases moved
    | test =>
      obtain ⟨timedOut, here, ⟨flag, rfl⟩ | ⟨flag, rfl, rfl⟩⟩ := test_decides moved
      · exact Or.inl ⟨rfl, running, .testPasses timedOut here (due rfl) flag⟩
      · exact Or.inl ⟨rfl, running, .testBlocks here (due rfl) flag⟩
    | block =>
      obtain ⟨here, rfl⟩ := Cleanup.move_cases moved
      exact Or.inl ⟨rfl, running, .block here⟩
    | erase nows =>
      obtain ⟨⟨here, -⟩, erased⟩ := Option.ite_none_right_eq_some.1 moved
      obtain rfl := Option.some.inj erased
      exact Or.inl ⟨rfl, running, .erase _ here (due rfl)⟩
    | loadFlag =>
      obtain ⟨here, rfl⟩ := Cleanup.move_cases moved
      cases s.core.store.panicClean with
      | true => exact Or.inl ⟨rfl, running, .loadFlag here⟩
      | false => exact Or.inl ⟨rfl, running, .loadNoFlag here⟩
    | clearFlag =>
      obtain ⟨here, cleared⟩ := Option.ite_none_right_eq_some.1 moved
      obtain rfl := Option.some.inj cleared
      exact Or.inl ⟨rfl, running, .clearFlag _ here⟩
  | loadClean =>
    obtain ⟨running, ⟨timedOut, due, here, rfl⟩ | ⟨timedOut, due, here, rfl⟩ | ⟨due, here, rfl⟩⟩ :=
      loadClean_cases taken
    · rw [if_neg (by simp [down])]
      exact Or.inl ⟨rfl, running, .leave (Or.inl due)⟩
    · rw [if_neg (by simp [down])]
      exact Or.inl ⟨rfl, running, .predicate timedOut here due⟩
    · rw [if_neg (by simp [down])]
      exact Or.inl ⟨rfl, running, .leave (Or.inr due)⟩
  | storeClean =>
    obtain ⟨alive, -⟩ := storeClean_cases taken
    exact absurd alive begun
  | notifyAll =>
    obtain ⟨stored, rfl⟩ := notifyAll_cases taken
    exact Or.inr (Or.inl ⟨rfl, stored, rfl⟩)
  | join =>
    obtain ⟨notified, ended, rfl⟩ := join_cases taken
    exact Or.inr (Or.inr ⟨rfl, notified, ended, rfl⟩)

/-- The flag stays down. -/
theorem down_step (placed : s.Placed) (down : s.clean = false) {e : ShutdownEvent}
    (taken : s.step e = some t) : t.clean = false := by
  rcases down_cases placed down taken with ⟨-, -, winds⟩ | ⟨-, -, rfl⟩ | ⟨-, -, -, rfl⟩
  · cases winds <;> exact down
  · exact down
  · exact down

/-! ## The last pass -/

/-- A pass has begun and has not erased yet. -/
def owed (s : Shutdown) : Nat := if s.core.stage = .passing ∧ s.load = none then 1 else 0

/-- Only the pass that had begun erases anything. -/
theorem cleaned_step (placed : s.Placed) (down : s.clean = false) {e : ShutdownEvent}
    (taken : s.step e = some t) :
    t.core.cleaned + t.owed = s.core.cleaned + s.owed := by
  rcases down_cases placed down taken with ⟨-, -, winds⟩ | ⟨-, -, rfl⟩ | ⟨-, -, -, rfl⟩
  · cases winds with
    | erase store here due => simp [owed, here, due]
    | leave due => rfl
    | _ => simp_all [owed]
  · dsimp only [owed]
    split
    · rename_i asleep
      simp [asleep]
    · rfl
  · rfl

/-- A run from the store on, and the state the store leads to. -/
theorem split_at_store {maxSessions : UInt16} {before after : List ShutdownEvent}
    (run : (machine maxSessions).Run (before ++ .storeClean :: after) t) :
    ∃ s, (machine maxSessions).Run before s ∧
      (machine maxSessions).exec { s with clean := false, destructor := .stored } after = some t ∧
      Placed { s with clean := false, destructor := .stored } := by
  obtain ⟨s, earlier, later⟩ := Machine.run_append.1 run
  obtain ⟨u, stored, rest⟩ := Option.bind_eq_some_iff.1 later
  have taken : s.step .storeClean = some u := stored
  obtain ⟨-, rfl⟩ := storeClean_cases taken
  exact ⟨s, earlier, rest, (placed earlier).step taken⟩

/-- The thread has found `clean` true after a wait for the timeout. -/
def passBegun : List ShutdownEvent :=
  [.cleanup .acquire, .loadClean, .loadClean, .cleanup .test, .cleanup .block,
    .cleanup (.wake true), .cleanup .acquire, .loadClean, .cleanup .test, .loadClean]

/-- The destructor begins, and the thread erases, leaves the loop and is joined. -/
def passFinished : List ShutdownEvent :=
  [.notifyAll, .cleanup (.erase []), .cleanup .loadFlag, .loadClean, .join]

/-- How many steps the thread has left, at most. -/
def stepsLeft : CleanupStage → Option Load → Nat
  | .passing, some _ => 1
  | .testing _, some .loopHead => 1
  | .testing _, some _ => 2
  | .awake _, some .loopHead => 2
  | .clearing, _ => 2
  | .awake _, _ => 3
  | .erased, _ => 3
  | .blocked, _ => 4
  | .passing, none => 4
  | .blocking, _ => 5
  | .testing _, none => 6

def left (s : Shutdown) : Nat := if s.ended then 0 else stepsLeft s.core.stage s.load

theorem left_le (s : Shutdown) : s.left ≤ 6 := by
  unfold left
  split
  · exact Nat.zero_le _
  · unfold stepsLeft
    split <;> omega

theorem stepsLeft_pos (stage : CleanupStage) (load : Option Load) : 0 < stepsLeft stage load := by
  unfold stepsLeft
  split <;> omega

/-- Every step of the thread uses one of them up. -/
theorem Winds.left (winds : Winds s t) (fits : fits s.core.stage s.load = true)
    (running : s.ended = false) : t.left < s.left := by
  have now : s.left = stepsLeft s.core.stage s.load := by simp [Shutdown.left, running]
  rw [now]
  cases winds with
  | wake timedOut here =>
    rw [here] at fits
    simp [Shutdown.left, running, here, fits_blocked fits, stepsLeft]
  | acquire timedOut here =>
    rw [here] at fits ⊢
    cases due : s.load with
    | none =>
      rw [due] at fits
      cases fits
    | some load => cases load <;> simp_all [Shutdown.left, Shutdown.fits, stepsLeft]
  | testPasses timedOut here due flag => simp [Shutdown.left, running, here, due, stepsLeft]
  | testBlocks here due flag => simp [Shutdown.left, running, here, due, stepsLeft]
  | block here => simp [Shutdown.left, running, here, stepsLeft]
  | erase store here due => simp [Shutdown.left, running, here, due, stepsLeft]
  | loadFlag here => simp [Shutdown.left, running, here, stepsLeft]
  | loadNoFlag here => simp [Shutdown.left, running, here, stepsLeft]
  | clearFlag store here => simp [Shutdown.left, running, here, stepsLeft]
  | leave due =>
    rw [show Shutdown.left { s with ended := true } = 0 from rfl]
    exact stepsLeft_pos _ _
  | predicate timedOut here due => simp [Shutdown.left, running, here, due, stepsLeft]

/-- No other step gives it more. -/
theorem left_step (placed : s.Placed) (down : s.clean = false) {e : ShutdownEvent}
    (taken : s.step e = some t) : (if e.byThread then 1 else 0) + t.left ≤ s.left := by
  rcases down_cases placed down taken with ⟨thread, running, winds⟩ | ⟨rfl, -, rfl⟩ |
    ⟨rfl, -, -, rfl⟩
  · have less := winds.left placed.fits running
    rw [if_pos thread]
    omega
  · simp only [ShutdownEvent.byThread, Bool.false_eq_true, if_false, Nat.zero_add]
    unfold left
    dsimp only
    split
    · exact Nat.le_refl 0
    · split
      · rename_i asleep
        have here := placed.fits
        rw [asleep] at here ⊢
        rw [fits_blocked here]
        decide
      · exact Nat.le_refl _
  · exact Nat.le_of_eq (Nat.zero_add _)

/-- Whatever the order of the steps, the thread takes no more than it has left. -/
theorem countP_le_left {maxSessions : UInt16} {fs : List ShutdownEvent} (placed : s.Placed)
    (down : s.clean = false) (run : (machine maxSessions).exec s fs = some t) :
    fs.countP ShutdownEvent.byThread + t.left ≤ s.left := by
  induction fs generalizing s with
  | nil =>
    obtain rfl := Option.some.inj run
    exact Nat.le_of_eq (Nat.zero_add _)
  | cons e fs ih =>
    obtain ⟨u, stepped, rest⟩ := Option.bind_eq_some_iff.1 run
    have taken : s.step e = some u := stepped
    have first := left_step placed down taken
    have later := ih (placed.step taken) (down_step placed down taken) rest
    rw [List.countP_cons]
    omega

/-- A step of the thread that no load comes before. -/
theorem step_thread (running : s.ended = false) {e : CleanupEvent} (thread : e.byCaller = false)
    (due : e.loaded = true → s.load = none) {core : Cleanup} (moved : s.core.step e = some core) :
    s.step (.cleanup e) = some { s with core, load := loadAfter s.load e core.stage } := by
  have free : ¬ (s.ended = true ∨ (e.byCaller = true ∧ s.destructor ≠ .alive) ∨
      (e.loaded = true ∧ s.load ≠ none)) := by
    simp only [running, thread]
    rintro (h | ⟨h, -⟩ | ⟨h, other⟩)
    · cases h
    · cases h
    · exact other (due h)
  change (if _ then none else _) = _
  rw [if_neg free, moved]
  rfl

/-- The thread can always go on, if only by the timeout. -/
theorem thread_can_step (placed : s.Placed) (running : s.ended = false) (maxSessions : UInt16) :
    ∃ e t, e.byThread = true ∧ (machine maxSessions).step s e = some t := by
  have go (e : CleanupEvent) (thread : e.byCaller = false) (due : e.loaded = true → s.load = none)
      {core : Cleanup} (moved : s.core.step e = some core) :
      ∃ e t, e.byThread = true ∧ (machine maxSessions).step s e = some t :=
    ⟨.cleanup e, _, by simp [ShutdownEvent.byThread, thread],
      step_thread running thread due moved⟩
  have load (u : Shutdown) (taken : s.loadClean = some u) :
      ∃ e t, e.byThread = true ∧ (machine maxSessions).step s e = some t :=
    ⟨.loadClean, u, rfl, taken⟩
  have here := placed.fits
  cases stage : s.core.stage with
  | awake timedOut =>
    have moved : s.core.step .acquire = some { s.core with stage := .testing timedOut } := by
      simp only [Cleanup.step, stage]
    exact go .acquire rfl (by simp [CleanupEvent.loaded]) moved
  | testing timedOut =>
    rw [stage] at here
    cases due : s.load with
    | none =>
      obtain ⟨core, moved⟩ : ∃ core, s.core.step .test = some core := by
        simp only [Cleanup.step, Cleanup.test, stage]
        split
        · exact ⟨_, rfl⟩
        · exact ⟨_, rfl⟩
      exact go .test rfl (fun _ => due) moved
    | some which =>
      rw [due] at here
      cases which with
      | loopHead => exact load _ (by simp only [loadClean, running, due, stage]; rfl)
      | predicate => exact load _ (by simp only [loadClean, running, due, stage]; rfl)
      | afterWait => cases here
  | blocking =>
    exact go .block rfl (fun _ => fits_none here (Or.inl stage)) (if_pos stage)
  | blocked => exact go (.wake true) rfl (by simp [CleanupEvent.loaded]) (if_pos stage)
  | passing =>
    rw [stage] at here
    cases due : s.load with
    | none =>
      have ready : s.core.stage = .passing ∧
          (List.replicate s.core.store.sessions.length (0 : UInt64)).length =
            s.core.store.sessions.length := ⟨stage, List.length_replicate⟩
      exact go (.erase _) rfl (fun _ => due) (if_pos ready)
    | some which =>
      rw [due] at here
      cases which with
      | loopHead => cases here
      | predicate => cases here
      | afterWait => exact load _ (by simp only [loadClean, running, due, stage]; rfl)
  | erased =>
    exact go .loadFlag rfl (fun _ => fits_none here (Or.inr (Or.inl stage))) (if_pos stage)
  | clearing =>
    exact go .clearFlag rfl (fun _ => fits_none here (Or.inr (Or.inr stage))) (if_pos stage)

/-- Taking its last steps, it ends. -/
theorem thread_can_end (maxSessions : UInt16) (placed : s.Placed) (down : s.clean = false) :
    ∃ fs t, (machine maxSessions).exec s fs = some t ∧ t.ended = true ∧
      t.destructor ≠ .alive := by
  induction fuel : s.left using Nat.strong_induction_on generalizing s with
  | _ n ih =>
    cases running : s.ended with
    | true => exact ⟨[], s, rfl, running, placed.begun down⟩
    | false =>
      obtain ⟨e, u, thread, taken⟩ := thread_can_step placed running maxSessions
      have taken : s.step e = some u := taken
      have less := left_step placed down taken
      rw [if_pos thread] at less
      obtain ⟨fs, t, moved, rest⟩ := ih u.left (by omega) (placed.step taken)
        (down_step placed down taken) rfl
      exact ⟨e :: fs, t, Option.bind_eq_some_iff.2 ⟨u, taken, moved⟩, rest⟩

/-- Then the destructor returns. -/
theorem can_return (maxSessions : UInt16) (begun : s.destructor ≠ .alive) (ended : s.ended = true) :
    ∃ fs t, (machine maxSessions).exec s fs = some t ∧ t.destructor = .joined := by
  have last (s : Shutdown) (ended : s.ended = true) (notified : s.destructor = .notified) :
      s.join = some { s with destructor := .joined } := if_pos ⟨notified, ended⟩
  cases stage : s.destructor with
  | alive => exact absurd stage begun
  | stored =>
    have woken : s.notifyAll = some _ := if_pos stage
    have both : (machine maxSessions).exec s [.notifyAll, .join] = some _ :=
      Option.bind_eq_some_iff.2 ⟨_, woken, Option.bind_eq_some_iff.2 ⟨_, last _ ended rfl, rfl⟩⟩
    exact ⟨[.notifyAll, .join], _, both, rfl⟩
  | notified =>
    exact ⟨[.join], _, Option.bind_eq_some_iff.2 ⟨_, last s ended stage, rfl⟩, rfl⟩
  | joined => exact ⟨[], s, rfl, stage⟩

/-- **The cleanup thread ends.** From the store on it takes at most six steps, in any order with
those of the destructor; until it has ended it has one to take; and a run can always go on to
where the destructor has joined it. -/
theorem cleanup_thread_ends {maxSessions : UInt16} {before after : List ShutdownEvent}
    (run : (machine maxSessions).Run (before ++ .storeClean :: after) t) :
    after.countP ShutdownEvent.byThread ≤ 6 ∧
      (t.ended = false → ∃ e u, e.byThread = true ∧
        (machine maxSessions).Run (before ++ .storeClean :: after ++ [e]) u) ∧
      ∃ fs u, (machine maxSessions).Run (before ++ .storeClean :: after ++ fs) u ∧
        u.destructor = .joined := by
  obtain ⟨s, -, rest, start⟩ := split_at_store run
  obtain ⟨there, down⟩ := Machine.exec_invariant (M := machine maxSessions)
    (I := fun t => t.Placed ∧ t.clean = false)
    (fun u e v inv taken => ⟨inv.1.step taken, down_step inv.1 inv.2 taken⟩) ⟨start, rfl⟩ rest
  refine ⟨?_, fun running => ?_, ?_⟩
  · have used := countP_le_left start rfl rest
    have bound := left_le { s with clean := false, destructor := .stored }
    omega
  · obtain ⟨e, u, thread, taken⟩ := thread_can_step there running maxSessions
    exact ⟨e, u, thread, run.snoc taken⟩
  · obtain ⟨fs, u, moved, ended, begun⟩ := thread_can_end maxSessions there down
    obtain ⟨gs, v, returned, joined⟩ := can_return maxSessions begun ended
    refine ⟨fs ++ gs, v, Machine.run_append.2 ⟨t, run, ?_⟩, joined⟩
    rw [Machine.exec_append, moved]
    exact returned

theorem cleanup_thread_ends_passBegun :
    ∃ fs u, (machine 10).Run (passBegun ++ [ShutdownEvent.storeClean] ++ fs) u ∧
      u.destructor = .joined := by
  obtain ⟨t, run⟩ : ∃ t, (machine 10).Run (passBegun ++ [ShutdownEvent.storeClean]) t := ⟨_, rfl⟩
  exact (cleanup_thread_ends run).2.2

/-! ## Who hears the notification -/

/-- The thread is about to block: it has loaded `clean`, and the rest of its predicate is false. -/
def missing (s : Shutdown) : Bool :=
  match s.core.stage with
  | .blocking => true
  | .testing false => s.load.isNone && !s.core.store.panicClean
  | _ => false

/-- `notify_all` does not come between the thread's load of `clean` and its blocking. -/
def heard (s : Shutdown) : ShutdownEvent → Bool
  | .notifyAll => !s.missing
  | _ => true

/-- The thread sleeps on after `notify_all`, and only the timeout is left to wake it. -/
def Asleep (s : Shutdown) : Prop := s.destructor = .notified ∧ s.core.stage = .blocked

/-- A thread that neither sleeps nor is about to does not come to it once the flag is down. -/
theorem Winds.awake (winds : Winds s t) (fits : fits s.core.stage s.load = true)
    (unblocked : s.core.stage ≠ .blocked) (found : s.missing = false) :
    t.core.stage ≠ .blocked ∧ t.missing = false := by
  cases winds with
  | wake timedOut here => exact absurd here unblocked
  | acquire timedOut here =>
    rw [here] at fits
    obtain ⟨load, due⟩ := Option.ne_none_iff_exists'.1 (fits_testing (b := timedOut) fits).2
    refine ⟨by simp, ?_⟩
    cases timedOut <;> simp [missing, due]
  | testBlocks here due flag => simp [missing, here, due, flag] at found
  | block here => simp [missing, here] at found
  | leave due => exact ⟨unblocked, found⟩
  | _ => simp [missing]

/-- Behind it: once notified, the thread does not sleep and is not about to. -/
structure Alert (s : Shutdown) : Prop where
  placed : s.Placed
  awake : s.destructor = .notified ∨ s.destructor = .joined →
    s.core.stage ≠ .blocked ∧ s.missing = false

theorem alive_step (alive : s.destructor = .alive) {e : ShutdownEvent}
    (taken : s.step e = some t) : t.destructor = .alive ∨ t.destructor = .stored := by
  cases e with
  | cleanup e =>
    obtain ⟨-, -, -, core, -, rfl⟩ := cleanup_cases taken
    exact Or.inl alive
  | loadClean =>
    obtain ⟨-, ⟨_, -, -, rfl⟩ | ⟨_, -, -, rfl⟩ | ⟨-, -, rfl⟩⟩ := loadClean_cases taken <;>
    · left
      split <;> exact alive
  | storeClean =>
    obtain ⟨-, rfl⟩ := storeClean_cases taken
    exact Or.inr rfl
  | notifyAll =>
    obtain ⟨stored, -⟩ := notifyAll_cases taken
    rw [alive] at stored
    cases stored
  | join =>
    obtain ⟨notified, -⟩ := join_cases taken
    rw [alive] at notified
    cases notified

theorem Alert.step (alert : s.Alert) {e : ShutdownEvent} (guard : heard s e = true)
    (taken : s.step e = some t) : t.Alert := by
  refine ⟨alert.placed.step taken, fun told => ?_⟩
  cases up : s.clean with
  | true =>
    rcases alive_step (alert.placed.flag.1 up) taken with now | now <;>
    · rw [now] at told
      simp at told
  | false =>
    rcases down_cases alert.placed up taken with ⟨-, -, winds⟩ | ⟨rfl, stored, rfl⟩ |
      ⟨rfl, notified, -, rfl⟩
    · have before : s.destructor = .notified ∨ s.destructor = .joined := by
        cases winds <;> exact told
      obtain ⟨unblocked, found⟩ := alert.awake before
      exact winds.awake alert.placed.fits unblocked found
    · have clear : s.missing = false := by simpa [heard] using guard
      dsimp only
      split
      · exact ⟨by simp, rfl⟩
      · rename_i unblocked
        exact ⟨unblocked, clear⟩
    · exact alert.awake (Or.inl notified)

/-- The mark of a notification nobody heard. -/
def Unheard (s : Shutdown) : Prop := s.destructor = .notified ∧ s.missing = true

theorem missing_iff : s.missing = true ↔ s.core.stage = .blocking ∨
    (s.core.stage = .testing false ∧ s.load = none ∧ s.core.store.panicClean = false) := by
  unfold missing
  split
  · rename_i here
    simp [here]
  · rename_i here
    simp [here, Option.isNone_iff_eq_none]
  · rename_i blocking testing
    constructor
    · intro no
      cases no
    · rintro (stage | ⟨stage, -⟩)
      · exact absurd stage blocking
      · exact absurd stage testing

/-- It stays until the thread sleeps. -/
theorem Unheard.step (unheard : s.Unheard) (placed : s.Placed) {e : ShutdownEvent}
    (taken : s.step e = some t) : t.Unheard ∨ t.Asleep := by
  obtain ⟨notified, here⟩ := unheard
  have unloaded : s.load = none := by
    rcases missing_iff.1 here with blocking | ⟨-, none, -⟩
    · exact fits_none placed.fits (Or.inl blocking)
    · exact none
  have down : s.clean = false := by
    cases up : s.clean with
    | false => rfl
    | true =>
      rw [placed.flag.1 up] at notified
      cases notified
  rcases down_cases placed down taken with ⟨-, running, winds⟩ | ⟨-, stored, -⟩ | ⟨-, -, ended, -⟩
  · rcases missing_iff.1 here with stage | ⟨stage, -, flag⟩
    · cases winds with
      | block => exact Or.inr ⟨notified, rfl⟩
      | leave due => simp [unloaded] at due
      | _ => simp_all
    · cases winds with
      | testBlocks => exact Or.inl ⟨notified, rfl⟩
      | leave due => simp [unloaded] at due
      | _ => simp_all
  · rw [notified] at stored
    cases stored
  · exact absurd unloaded (placed.ended ended).2

/-- A thread that is about to block and has not the flag's news goes to sleep. -/
theorem Unheard.shown {maxSessions : UInt16} {es : List ShutdownEvent}
    (run : (machine maxSessions).Run es s) (unheard : s.Unheard) :
    ∃ fs t, (∀ e ∈ fs, e = .cleanup .test ∨ e = .cleanup .block) ∧
      (machine maxSessions).Run (es ++ fs) t ∧ t.Asleep := by
  obtain ⟨notified, here⟩ := unheard
  have place := placed run
  have unloaded : s.load = none := by
    rcases missing_iff.1 here with blocking | ⟨-, none, -⟩
    · exact fits_none place.fits (Or.inl blocking)
    · exact none
  have running : s.ended = false :=
    Bool.eq_false_iff.2 fun ended => (place.ended ended).2 unloaded
  rcases missing_iff.1 here with stage | ⟨stage, -, flag⟩
  · have slept := step_thread running (e := .block) rfl (fun _ => unloaded) (if_pos stage)
    exact ⟨[.cleanup .block], _, by simp, run.snoc slept, notified, rfl⟩
  · have decided : s.core.step .test = some { s.core with stage := .blocking } := by
      simp only [Cleanup.step, Cleanup.test, stage, flag]
      rfl
    have tested := step_thread running (e := .test) rfl (fun _ => unloaded) decided
    have blocks : Cleanup.step { s.core with stage := .blocking } .block =
        some { s.core with stage := .blocked } := rfl
    have slept := step_thread (s := { s with core := { s.core with stage := .blocking } })
      running (e := .block) rfl (fun _ => unloaded) blocks
    have both : (machine maxSessions).exec s [.cleanup .test, .cleanup .block] = some _ :=
      Option.bind_eq_some_iff.2 ⟨_, tested, Option.bind_eq_some_iff.2 ⟨_, slept, rfl⟩⟩
    exact ⟨_, _, by simp, Machine.run_append.2 ⟨s, run, both⟩, notified, rfl⟩

/-- The destructor stores and notifies between the load of `clean` and the wait. -/
def missedNotification : List ShutdownEvent :=
  [.cleanup .acquire, .loadClean, .loadClean, .cleanup .test, .storeClean, .notifyAll,
    .cleanup .block]

theorem notification_missed (maxSessions : UInt16) :
    ∃ s, (machine maxSessions).Run missedNotification s ∧ s.Asleep := ⟨_, rfl, rfl, rfl⟩

/-- **The notification can be missed**, and the thread sleeps until the timeout. It never does, in
a run and whatever the thread does next, exactly when `notify_all` never comes between the
thread's load of `clean` and its blocking. -/
theorem never_asleep_iff {maxSessions : UInt16} {es : List ShutdownEvent}
    (run : (machine maxSessions).Run es s) :
    (∃ fs t, (machine maxSessions).Run fs t ∧ t.Asleep) ∧
    ((∀ fs, (∀ e ∈ fs, e = ShutdownEvent.cleanup .test ∨ e = .cleanup .block) →
        (machine maxSessions).Always (fun s => ¬ s.Asleep) (es ++ fs)) ↔
      (machine maxSessions).Guarded (fun s e => heard s e = true) es) := by
  refine ⟨⟨_, notification_missed maxSessions⟩, ?_⟩
  refine Machine.always_until_iff_guarded (I := Alert) (B := Unheard)
    ⟨⟨rfl, by simp [machine], by simp [machine]⟩, by simp [machine]⟩
    ?next ?use ?free ?brings ?keeps ?shown run
  case next => exact fun s e t alert guard taken => alert.step guard taken
  case use => exact fun s alert asleep => (alert.awake (Or.inl asleep.1)).1 asleep.2
  case free =>
    rintro e (rfl | rfl) s <;> rfl
  case brings =>
    rintro s e t - unheard taken
    cases e with
    | notifyAll =>
      obtain ⟨-, rfl⟩ := notifyAll_cases taken
      have here : s.missing = true := by simpa [heard] using unheard
      have unblocked : s.core.stage ≠ .blocked := by
        intro blocked
        simp [missing, blocked] at here
      refine ⟨rfl, ?_⟩
      rw [if_neg unblocked]
      exact here
    | _ => exact absurd rfl unheard
  case keeps =>
    rintro s e t ⟨es, run⟩ unheard taken
    simpa using unheard.step (placed run) taken
  case shown =>
    intro es s run unheard
    simpa using unheard.shown run

theorem never_asleep_iff_passFinished :
    (machine 10).Always (fun s => ¬ s.Asleep) (passBegun ++ .storeClean :: passFinished ++ []) := by
  obtain ⟨s, run⟩ : ∃ s, (machine 10).Run (passBegun ++ .storeClean :: passFinished) s := ⟨_, rfl⟩
  exact (never_asleep_iff run).2.2 (Machine.guarded_of_check (by decide)) [] (by simp)

end Shutdown

end Lynks
