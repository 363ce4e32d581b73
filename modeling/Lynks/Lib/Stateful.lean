import Lynks.Lib.Effects

/-!
# Computations on a state

A `Stateful σ ξ α` computes an `Outcome` and changes a state `σ` on the way. What it has done
to the state stays done when it throws: a caller that sees the exception sees the state of that
moment, and so does anything that outlives the computation.
-/

namespace Lib
set_option autoImplicit false

/-- A computation that ends with an outcome, and the state it leaves. -/
def Stateful (σ ξ α : Type) : Type := σ → Outcome ξ α × σ

namespace Stateful

variable {σ ξ α β : Type}

/-- Sequencing: an exception or undefined behaviour skips the rest, and keeps the state. -/
def bind (x : Stateful σ ξ α) (f : α → Stateful σ ξ β) : Stateful σ ξ β := fun s =>
  match x s with
  | (.ok a, t) => f a t
  | (.throws e, t) => (.throws e, t)
  | (.undefined, t) => (.undefined, t)

instance : Monad (Stateful σ ξ) where
  pure a := fun s => (.ok a, s)
  bind := bind

/-- Read the state. -/
def get : Stateful σ ξ σ := fun s => (.ok s, s)

/-- Change the state. -/
def modify (f : σ → σ) : Stateful σ ξ Unit := fun s => (.ok (), f s)

/-- A computation that leaves the state alone. -/
def lift (x : Outcome ξ α) : Stateful σ ξ α := fun s => (x, s)

@[simp] theorem pure_run (a : α) (s : σ) : (pure a : Stateful σ ξ α) s = (.ok a, s) := rfl
@[simp] theorem lift_run (x : Outcome ξ α) (s : σ) : (lift x : Stateful σ ξ α) s = (x, s) := rfl
@[simp] theorem modify_run (f : σ → σ) (s : σ) :
    (modify f : Stateful σ ξ Unit) s = (.ok (), f s) := rfl
@[simp] theorem lift_ok_bind (a : α) (f : α → Stateful σ ξ β) (s : σ) :
    (lift (.ok a) >>= f) s = f a s := rfl
@[simp] theorem lift_throws_bind (e : ξ) (f : α → Stateful σ ξ β) (s : σ) :
    (lift (.throws e) >>= f) s = (.throws e, s) := rfl
@[simp] theorem get_bind (f : σ → Stateful σ ξ β) (s : σ) : (get >>= f) s = f s s := rfl
@[simp] theorem modify_bind (g : σ → σ) (f : Unit → Stateful σ ξ β) (s : σ) :
    (modify g >>= f) s = f () (g s) := rfl

theorem bind_of_ok {x : Stateful σ ξ α} {f : α → Stateful σ ξ β} {s t : σ} {a : α}
    (ran : x s = (.ok a, t)) : (x >>= f) s = f a t := by
  show bind x f s = f a t
  rw [bind, ran]

theorem bind_of_throws {x : Stateful σ ξ α} {f : α → Stateful σ ξ β} {s t : σ} {e : ξ}
    (ran : x s = (.throws e, t)) : (x >>= f) s = (.throws e, t) := by
  show bind x f s = (.throws e, t)
  rw [bind, ran]

end Stateful

end Lib
