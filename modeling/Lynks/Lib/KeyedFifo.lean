import Mathlib.Logic.Function.Basic
import Lynks.Lib.Machine

/-!
# A queue for each key

The abstract mailbox: values are put under their key and taken from the front of that key's
queue. `put_eq_taken_append` is its conservation law: for each key, what has been taken
followed by what is still queued is what was put, in order. A component that simulates this
machine loses, duplicates and reorders nothing.
-/

namespace Lib
set_option autoImplicit false

variable {K V : Type} [DecidableEq K] [DecidableEq V] (key : V → K)

/-- One operation on a mailbox. -/
inductive Post (V : Type) where
  | put (v : V)
  | take (v : V)
  deriving DecidableEq, Repr

namespace Post

/-- The value an operation puts. -/
def put? : Post V → Option V
  | put v => some v
  | take _ => none

/-- The value an operation takes. -/
def take? : Post V → Option V
  | put _ => none
  | take v => some v

end Post

/-- The mailbox; a value can be taken when it is at the front of its queue. -/
def keyedFifo : Machine (K → List V) (Post V) where
  init := fun _ => []
  step q
    | .put v => some (Function.update q (key v) (q (key v) ++ [v]))
    | .take v =>
      if (q (key v)).head? = some v then some (Function.update q (key v) (q (key v)).tail) else none

variable {key}

/-- **Conservation**, for each key and in order. -/
theorem put_eq_taken_append {ops : List (Post V)} {q : K → List V}
    (run : (keyedFifo key).Run ops q) (k : K) :
    (ops.filterMap Post.put?).filter (fun v => key v = k) =
      (ops.filterMap Post.take?).filter (fun v => key v = k) ++ q k := by
  refine Machine.Run.induct (M := keyedFifo key) (I := fun ops q => ∀ k,
    (ops.filterMap Post.put?).filter (fun v => key v = k) =
      (ops.filterMap Post.take?).filter (fun v => key v = k) ++ q k) (fun _ => rfl) ?_ run k
  intro ops q op q' _ ih moved k
  rw [List.filterMap_append, List.filterMap_append, List.filter_append, List.filter_append, ih k]
  cases op with
  | put v =>
    obtain rfl := Option.some.inj moved
    by_cases same : key v = k
    · subst same; simp [Post.put?, Post.take?]
    · simp [Post.put?, Post.take?, same, Function.update_of_ne (Ne.symm same)]
  | take v =>
    simp only [keyedFifo, Option.ite_none_right_eq_some, Option.some.injEq] at moved
    obtain ⟨front, rfl⟩ := moved
    by_cases same : key v = k
    · subst same
      obtain ⟨rest, queue⟩ := List.head?_eq_some_iff.1 front
      simp [Post.put?, Post.take?, queue]
    · simp [Post.put?, Post.take?, same, Function.update_of_ne (Ne.symm same)]

end Lib
