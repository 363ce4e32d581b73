import Lynks.Lib.Machine

/-!
# `queue`

The shared queue with its two mutexes and its condition variable: any number of threads in
`push_back`, and one consumer, which calls `wait` and takes items. A `push_back` holds `mtx`
from its insertion to its `notify_one`, so the emptiness test, `pop_front` and the next
insertion wait for it. `wait` tests under `mtx` and blocks under `cv_mutex`, and between the
two it holds neither.
-/

namespace Lynks
set_option autoImplicit false

open Lib

/-- Where the consumer is. -/
inductive Consumer where
  /-- outside `wait` -/
  | away
  /-- in `wait`, about to call `is_empty` -/
  | testing
  /-- `is_empty` has returned true, and `cv.wait` has not begun -/
  | foundEmpty
  /-- in `cv.wait` -/
  | blocked
  deriving DecidableEq, Repr

structure Queue (α : Type) where
  q : List α
  /-- a `push_back` has inserted its item and not yet called `notify_one` -/
  notifying : Bool
  consumer : Consumer
  deriving DecidableEq, Repr

inductive QueueEvent (α : Type) where
  /-- the block of `push_back` up to the insertion -/
  | insert (item : α)
  /-- the rest of it, under `cv_mutex` as well -/
  | notifyOne
  | callWait
  /-- the test of the loop in `wait` -/
  | isEmpty
  /-- `cv.wait` releases `cv_mutex` and blocks -/
  | block
  /-- a wake-up that no `notify_one` caused -/
  | wake
  | popFront
  deriving DecidableEq, Repr

namespace Queue

variable {α : Type}

/-- The first half of `queue::push_back`. -/
def insert (s : Queue α) (item : α) : Option (Queue α) :=
  if s.notifying then none else some { s with q := s.q ++ [item], notifying := true }

/-- `cv.notify_one`, and the end of `queue::push_back`. It wakes a blocked consumer only. -/
def notifyOne (s : Queue α) : Option (Queue α) :=
  if s.notifying then
    some { s with
      notifying := false
      consumer := if s.consumer = .blocked then .testing else s.consumer }
  else none

/-- `queue::is_empty` in the loop of `queue::wait`. -/
def isEmpty (s : Queue α) : Option (Queue α) :=
  if s.consumer = .testing ∧ s.notifying = false then
    some { s with consumer := if s.q.isEmpty then .foundEmpty else .away }
  else none

/-- The consumer goes from one place to the next, whatever the queue holds. -/
def move (s : Queue α) (source target : Consumer) : Option (Queue α) :=
  if s.consumer = source then some { s with consumer := target } else none

/-- `queue::pop_front`, by the consumer. -/
def popFront (s : Queue α) : Option (Queue α) :=
  match s.q with
  | [] => none
  | _ :: rest =>
    if s.consumer = .away ∧ s.notifying = false then some { s with q := rest } else none

def step (s : Queue α) : QueueEvent α → Option (Queue α)
  | .insert item => s.insert item
  | .notifyOne => s.notifyOne
  | .callWait => s.move .away .testing
  | .isEmpty => s.isEmpty
  | .block => s.move .foundEmpty .blocked
  | .wake => s.move .blocked .testing
  | .popFront => s.popFront

/-- The queue, from its construction. -/
def machine (α : Type) : Machine (Queue α) (QueueEvent α) :=
  { init := { q := [], notifying := false, consumer := .away }, step := step }

/-- The consumer sleeps, an item is there, and no notification is to come. -/
def Stranded (s : Queue α) : Prop := s.consumer = .blocked ∧ s.q ≠ [] ∧ s.notifying = false

/-- The consumer blocks on a queue that is still empty, or with a notification to come. -/
def blocksInTime (s : Queue α) : QueueEvent α → Bool
  | .block => s.q.isEmpty || s.notifying
  | _ => true

variable {s t : Queue α}

theorem move_cases {source target : Consumer} (taken : s.move source target = some t) :
    s.consumer = source ∧ t = { s with consumer := target } := by
  obtain ⟨here, moved⟩ := Option.ite_none_right_eq_some.1 taken
  exact ⟨here, (Option.some.inj moved).symm⟩

/-- Only blocking too late leaves the consumer stranded: an insertion brings its notification,
and a notification wakes the consumer. -/
theorem awake_step {e : QueueEvent α} (inTime : s.blocksInTime e = true)
    (taken : s.step e = some t) : ¬ t.Stranded := by
  rintro ⟨asleep, left, silent⟩
  cases e with
  | insert item =>
    obtain ⟨-, inserted⟩ := Option.ite_none_left_eq_some.1 taken
    obtain rfl := Option.some.inj inserted
    cases silent
  | notifyOne =>
    obtain ⟨-, notified⟩ := Option.ite_none_right_eq_some.1 taken
    obtain rfl := Option.some.inj notified
    have woken : (if s.consumer = .blocked then Consumer.testing else s.consumer) ≠ .blocked := by
      split
      · exact Consumer.noConfusion
      · assumption
    exact woken asleep
  | isEmpty =>
    obtain ⟨-, tested⟩ := Option.ite_none_right_eq_some.1 taken
    obtain rfl := Option.some.inj tested
    have returned : (if s.q.isEmpty then Consumer.foundEmpty else .away) ≠ .blocked := by
      split <;> exact Consumer.noConfusion
    exact returned asleep
  | callWait =>
    obtain ⟨-, rfl⟩ := move_cases taken
    cases asleep
  | block =>
    obtain ⟨-, rfl⟩ := move_cases taken
    have due : s.q.isEmpty = true ∨ s.notifying = true := by simpa [blocksInTime] using inTime
    rcases due with empty | notifying
    · exact left (List.isEmpty_iff.1 empty)
    · rw [show s.notifying = false from silent] at notifying
      cases notifying
  | wake =>
    obtain ⟨-, rfl⟩ := move_cases taken
    cases asleep
  | popFront =>
    change s.popFront = some t at taken
    unfold popFront at taken
    split at taken
    · cases taken
    · obtain ⟨⟨away, -⟩, popped⟩ := Option.ite_none_right_eq_some.1 taken
      obtain rfl := Option.some.inj popped
      rw [show s.consumer = .blocked from asleep] at away
      cases away

/-- A consumer that blocks too late is stranded at once. -/
theorem stranded_of_late {e : QueueEvent α} (late : ¬ s.blocksInTime e = true)
    (taken : s.step e = some t) : t.Stranded := by
  cases e with
  | block =>
    obtain ⟨-, rfl⟩ := move_cases taken
    have missed : s.q ≠ [] ∧ s.notifying = false := by simpa [blocksInTime] using late
    exact ⟨rfl, missed⟩
  | _ => exact absurd rfl late

/-- **The exact condition for a wake-up not to be lost.** No item is ever left behind a
sleeping consumer exactly when the consumer never blocks on a queue that has an item and no push
whose notification is to come. -/
theorem never_stranded_iff {es : List (QueueEvent α)} (run : (machine α).Run es s) :
    (machine α).Always (fun s => ¬ s.Stranded) es ↔
      (machine α).Guarded (fun s e => s.blocksInTime e = true) es := by
  apply Machine.always_iff_guarded (I := fun s => ¬ s.Stranded) _ _ (fun _ => id) _ run
  · rintro ⟨asleep, -⟩
    cases asleep
  · exact fun s e t _ inTime taken => awake_step inTime taken
  · exact fun s e t _ late taken awake => awake (stranded_of_late late taken)

/-- A push between two waits, each step in its turn. -/
def prompt : List (QueueEvent Nat) :=
  [.callWait, .isEmpty, .insert 1, .block, .notifyOne, .isEmpty, .popFront, .callWait, .isEmpty,
    .block]

theorem never_stranded_iff_prompt : (machine Nat).Always (fun s => ¬ s.Stranded) prompt := by
  have ran : ∃ s, (machine Nat).Run prompt s := ⟨_, rfl⟩
  obtain ⟨s, run⟩ := ran
  exact (never_stranded_iff run).2 (Machine.guarded_of_check (by decide))

/-- A push falls between the emptiness test and the block. -/
def missed : List (QueueEvent Nat) := [.callWait, .isEmpty, .insert 1, .notifyOne, .block]

/-- The consumer sleeps on the item pushed. -/
theorem wakeup_lost :
    (∃ s, (machine Nat).Run missed s ∧ s.q = [1] ∧ s.Stranded) ∧
    ¬ ∀ es s, (machine Nat).Run es s → ¬ s.Stranded := by
  have lost : ∃ s, (machine Nat).Run missed s ∧ s.q = [1] ∧ s.Stranded :=
    ⟨_, rfl, rfl, rfl, by simp, rfl⟩
  refine ⟨lost, fun awake => ?_⟩
  obtain ⟨s, run, -, stranded⟩ := lost
  exact awake missed s run stranded

/-- A stranded item waits for the next push or a spurious wake-up. -/
theorem stranded_until {es : List (QueueEvent α)} (stranded : s.Stranded)
    (quiet : ∀ e ∈ es, e ≠ .wake ∧ ∀ item, e ≠ .insert item)
    (run : (machine α).exec s es = some t) : t = s := by
  induction es generalizing s with
  | nil => exact (Option.some.inj run).symm
  | cons e es ih =>
    obtain ⟨u, taken, rest⟩ := Option.bind_eq_some_iff.1 run
    obtain ⟨asleep, left, silent⟩ := stranded
    have stuck : s.step e = none := by
      cases e with
      | insert item => exact absurd rfl ((quiet _ List.mem_cons_self).2 item)
      | wake => exact absurd rfl (quiet _ List.mem_cons_self).1
      | notifyOne => simp [step, notifyOne, silent]
      | callWait => simp [step, move, asleep]
      | isEmpty => simp [step, isEmpty, asleep]
      | block => simp [step, move, asleep]
      | popFront =>
        simp only [step, popFront]
        split
        · rfl
        · simp [asleep]
    rw [show (machine α).step s e = none from stuck] at taken
    cases taken

end Queue

end Lynks
