import Mathlib.Init

/-!
# Programs over an interface of operations

A `Prog Op Ans ξ α` is a computation that performs operations `o : Op`, each answered by an
`Ans o`, and ends with an `Outcome`: a value, an exception, or undefined behaviour. A
coroutine is such a program: between two operations it runs alone, and whatever answers an
operation may do anything else first. `run` answers every operation from one environment,
`runState` from one that changes with every answer; `resume?` takes one answer and goes on.

`wp G Q past p` is the weakest precondition with history: every operation `p` performs
satisfies `G` over the operations already performed, and every end satisfies `Q`. It is
kept by every step (`resume?_wp`), so it can serve as an invariant of a system that runs many
programs at once.
-/

namespace Lib
set_option autoImplicit false

/-- How a computation ends. `undefined` promises nothing at all. -/
inductive Outcome (ξ α : Type) where
  | ok (a : α)
  | throws (e : ξ)
  | undefined
  deriving DecidableEq, Repr

namespace Outcome

variable {ξ α β : Type}

/-- Sequencing: an exception or undefined behaviour skips the rest. -/
def bind : Outcome ξ α → (α → Outcome ξ β) → Outcome ξ β
  | ok a, f => f a
  | throws e, _ => throws e
  | undefined, _ => undefined

instance : Monad (Outcome ξ) where
  pure := ok
  bind := bind

@[simp] theorem pure_eq (a : α) : (pure a : Outcome ξ α) = ok a := rfl
@[simp] theorem ok_bind (a : α) (f : α → Outcome ξ β) : (ok a >>= f) = f a := rfl
@[simp] theorem throws_bind (e : ξ) (f : α → Outcome ξ β) : (throws e >>= f) = throws e := rfl
@[simp] theorem undefined_bind (f : α → Outcome ξ β) :
    ((undefined : Outcome ξ α) >>= f) = undefined := rfl

theorem bind_eq_ok {x : Outcome ξ α} {f : α → Outcome ξ β} {b : β} :
    (x >>= f) = ok b ↔ ∃ a, x = ok a ∧ f a = ok b := by
  cases x <;> simp

theorem bind_eq_undefined {x : Outcome ξ α} {f : α → Outcome ξ β} :
    (x >>= f) = undefined ↔ x = undefined ∨ ∃ a, x = ok a ∧ f a = undefined := by
  cases x <;> simp

/-- The value, if there is one. -/
def value? : Outcome ξ α → Option α
  | ok a => some a
  | _ => none

@[simp] theorem value?_eq_some {x : Outcome ξ α} {a : α} : x.value? = some a ↔ x = ok a := by
  cases x <;> simp [value?]

end Outcome

/-- A computation over operations `o : Op` answered in `Ans o`. -/
inductive Prog (Op : Type) (Ans : Op → Type) (ξ α : Type) where
  | done (r : Outcome ξ α)
  | act (o : Op) (k : Ans o → Prog Op Ans ξ α)

namespace Prog

variable {Op : Type} {Ans : Op → Type} {ξ α β : Type}

/-- Sequencing. -/
def bind (f : α → Prog Op Ans ξ β) : Prog Op Ans ξ α → Prog Op Ans ξ β
  | done (.ok a) => f a
  | done (.throws e) => done (.throws e)
  | done .undefined => done .undefined
  | act o k => act o fun a => bind f (k a)

instance : Monad (Prog Op Ans ξ) where
  pure a := done (.ok a)
  bind p f := bind f p

/-- Perform one operation and return its answer. -/
def perform (o : Op) : Prog Op Ans ξ (Ans o) := act o fun a => done (.ok a)

/-- Run `p`, and `handler` on the exception it ends with. Undefined behaviour is not caught. -/
def catchAll (handler : ξ → Prog Op Ans ξ α) : Prog Op Ans ξ α → Prog Op Ans ξ α
  | done (.ok a) => done (.ok a)
  | done (.throws e) => handler e
  | done .undefined => done .undefined
  | act o k => act o fun a => catchAll handler (k a)

@[simp] theorem pure_eq (a : α) : (pure a : Prog Op Ans ξ α) = done (.ok a) := rfl
@[simp] theorem ok_bind (a : α) (f : α → Prog Op Ans ξ β) :
    ((done (.ok a) : Prog Op Ans ξ α) >>= f) = f a := rfl
@[simp] theorem throws_bind (e : ξ) (f : α → Prog Op Ans ξ β) :
    ((done (.throws e) : Prog Op Ans ξ α) >>= f) = done (.throws e) := rfl
@[simp] theorem undefined_bind (f : α → Prog Op Ans ξ β) :
    ((done .undefined : Prog Op Ans ξ α) >>= f) = done .undefined := rfl
@[simp] theorem act_bind (o : Op) (k : Ans o → Prog Op Ans ξ α) (f : α → Prog Op Ans ξ β) :
    (act o k >>= f) = act o fun a => k a >>= f := rfl
@[simp] theorem perform_bind (o : Op) (f : Ans o → Prog Op Ans ξ β) :
    (perform o >>= f) = act o f := rfl

/-! ## Running against an environment -/

/-- The end reached when every operation `o` is answered by `env o`. -/
def run (env : (o : Op) → Ans o) : Prog Op Ans ξ α → Outcome ξ α
  | done r => r
  | act o k => run env (k (env o))

@[simp] theorem run_done (env : (o : Op) → Ans o) (r : Outcome ξ α) :
    (done r : Prog Op Ans ξ α).run env = r := rfl

@[simp] theorem run_act (env : (o : Op) → Ans o) (o : Op) (k : Ans o → Prog Op Ans ξ α) :
    (act o k).run env = (k (env o)).run env := rfl

@[simp] theorem run_perform (env : (o : Op) → Ans o) (o : Op) :
    (perform o : Prog Op Ans ξ (Ans o)).run env = .ok (env o) := rfl

@[simp] theorem run_bind (env : (o : Op) → Ans o) (p : Prog Op Ans ξ α)
    (f : α → Prog Op Ans ξ β) : (p >>= f).run env = p.run env >>= fun a => (f a).run env := by
  induction p with
  | done r => cases r <;> rfl
  | act o k ih => exact ih (env o)

/-- The exception `p` ends with goes to the handler, every other end is kept. -/
theorem run_catchAll (env : (o : Op) → Ans o) (handler : ξ → Prog Op Ans ξ α)
    (p : Prog Op Ans ξ α) :
    (p.catchAll handler).run env =
      match p.run env with
      | .throws e => (handler e).run env
      | r => r := by
  induction p with
  | done r => cases r <;> rfl
  | act o k ih => exact ih (env o)

/-- A computation whose every exception is turned into a value ends in a value unless its
behaviour is undefined. -/
theorem run_catchAll_eq_ok (env : (o : Op) → Ans o) (handler : ξ → α) (p : Prog Op Ans ξ α) :
    (∃ a, (p.catchAll fun e => pure (handler e)).run env = .ok a) ↔ p.run env ≠ .undefined := by
  rw [run_catchAll]
  cases p.run env <;> simp

/-! ## Running against an environment with a state -/

/-- The end reached, and the state left, when each operation is answered from the state and
changes it. -/
def runState {σ : Type} (env : σ → (o : Op) → Ans o × σ) :
    σ → Prog Op Ans ξ α → Outcome ξ α × σ
  | s, done r => (r, s)
  | s, act o k => runState env (env s o).2 (k (env s o).1)

@[simp] theorem runState_done {σ : Type} (env : σ → (o : Op) → Ans o × σ) (s : σ)
    (r : Outcome ξ α) : (done r : Prog Op Ans ξ α).runState env s = (r, s) := rfl

@[simp] theorem runState_act {σ : Type} (env : σ → (o : Op) → Ans o × σ) (s : σ) (o : Op)
    (k : Ans o → Prog Op Ans ξ α) :
    (act o k).runState env s = (k (env s o).1).runState env (env s o).2 := rfl

/-- After an exception or undefined behaviour nothing more is asked. -/
theorem runState_bind {σ : Type} (env : σ → (o : Op) → Ans o × σ) (s : σ)
    (p : Prog Op Ans ξ α) (f : α → Prog Op Ans ξ β) :
    (p >>= f).runState env s =
      match p.runState env s with
      | (.ok a, t) => (f a).runState env t
      | (.throws e, t) => (.throws e, t)
      | (.undefined, t) => (.undefined, t) := by
  induction p generalizing s with
  | done r => cases r <;> rfl
  | act o k ih => exact ih _ _

/-! ## One answer at a time -/

/-- One operation performed and its answer. -/
abbrev Event (Op : Type) (Ans : Op → Type) : Type := (o : Op) × Ans o

/-- The program after its next operation, if that is the one of `e`, answered as in `e`. -/
def resume? [DecidableEq Op] (e : Event Op Ans) : Prog Op Ans ξ α → Option (Prog Op Ans ξ α)
  | done _ => none
  | act o k => if same : e.1 = o then some (k (same ▸ e.2)) else none

theorem resume?_eq_some [DecidableEq Op] {e : Event Op Ans} {p q : Prog Op Ans ξ α} :
    p.resume? e = some q ↔ ∃ k, p = act e.1 k ∧ q = k e.2 := by
  cases p with
  | done r => simp [resume?]
  | act o k =>
    constructor
    · intro resumed
      obtain ⟨same, continued⟩ := Option.dite_none_right_eq_some.1 resumed
      subst same
      exact ⟨k, rfl, (Option.some.inj continued).symm⟩
    · rintro ⟨k', same, rfl⟩
      injection same with same continuation
      subst same
      obtain rfl := eq_of_heq continuation
      simp [resume?]

/-- The program has ended, or waits for an answer to something that `blocked` holds of. -/
def Halted (blocked : Op → Prop) : Prog Op Ans ξ α → Prop
  | done _ => True
  | act o _ => blocked o

/-- Nothing blocked, it has ended. -/
theorem Halted.ended {blocked : Op → Prop} {p : Prog Op Ans ξ α} (halted : p.Halted blocked)
    (open' : ∀ o, ¬ blocked o) : ∃ r, p = done r := by
  cases p with
  | done r => exact ⟨r, rfl⟩
  | act o k => exact absurd halted (open' o)

/-- Weakest precondition with history. -/
def wp (G : List (Event Op Ans) → Op → Prop) (Q : List (Event Op Ans) → Outcome ξ α → Prop) :
    List (Event Op Ans) → Prog Op Ans ξ α → Prop
  | past, done r => Q past r
  | past, act o k => G past o ∧ ∀ a, wp G Q (past ++ [⟨o, a⟩]) (k a)

section

variable {G : List (Event Op Ans) → Op → Prop}

@[simp] theorem wp_done {Q : List (Event Op Ans) → Outcome ξ α → Prop} {past}
    {r : Outcome ξ α} : wp G Q past (done r) ↔ Q past r := Iff.rfl

@[simp] theorem wp_act {Q : List (Event Op Ans) → Outcome ξ α → Prop} {past} {o : Op}
    {k : Ans o → Prog Op Ans ξ α} :
    wp G Q past (act o k) ↔ G past o ∧ ∀ a, wp G Q (past ++ [⟨o, a⟩]) (k a) := Iff.rfl

theorem wp_mono {Q Q' : List (Event Op Ans) → Outcome ξ α → Prop}
    (weaker : ∀ past r, Q past r → Q' past r) {p : Prog Op Ans ξ α} {past}
    (h : wp G Q past p) : wp G Q' past p := by
  induction p generalizing past with
  | done r => exact weaker past r h
  | act o k ih => exact ⟨h.1, fun a => ih a (h.2 a)⟩

/-- Nothing asked of a program is always met. -/
theorem wp_trivial (past : List (Event Op Ans)) (p : Prog Op Ans ξ α) :
    p.wp (fun _ _ => True) (fun _ _ => True) past := by
  induction p generalizing past with
  | done r => trivial
  | act o k ih => exact ⟨trivial, fun a => ih a _⟩

/-- A program only adds to its past. -/
theorem wp_prefix (past : List (Event Op Ans)) (p : Prog Op Ans ξ α) :
    p.wp (fun _ _ => True) (fun past' _ => past <+: past') past := by
  induction p generalizing past with
  | done r => exact List.prefix_rfl
  | act o k ih =>
    refine ⟨trivial, fun a => wp_mono ?_ (ih a _)⟩
    exact fun past' r longer => (List.prefix_append _ _).trans longer

/-- The bind rule: the rest runs after each value, exceptions and undefined behaviour pass. -/
theorem wp_bind {Q : List (Event Op Ans) → Outcome ξ β → Prop} {f : α → Prog Op Ans ξ β}
    {p : Prog Op Ans ξ α} {past} (h : wp G (fun past r => match r with
      | .ok a => wp G Q past (f a)
      | .throws e => Q past (.throws e)
      | .undefined => Q past .undefined) past p) : wp G Q past (p >>= f) := by
  induction p generalizing past with
  | done r => cases r <;> exact h
  | act o k ih => exact ⟨h.1, fun a => ih a (h.2 a)⟩

/-- The handler rule. -/
theorem wp_catchAll {Q : List (Event Op Ans) → Outcome ξ α → Prop}
    {handler : ξ → Prog Op Ans ξ α} {p : Prog Op Ans ξ α} {past}
    (h : wp G (fun past r => match r with
      | .throws e => wp G Q past (handler e)
      | r => Q past r) past p) : wp G Q past (p.catchAll handler) := by
  induction p generalizing past with
  | done r => cases r <;> exact h
  | act o k ih => exact ⟨h.1, fun a => ih a (h.2 a)⟩

/-- A step performs an allowed operation and keeps the precondition, over the longer history. -/
theorem resume?_wp [DecidableEq Op] {Q : List (Event Op Ans) → Outcome ξ α → Prop}
    {e : Event Op Ans} {p q : Prog Op Ans ξ α} {past} (resumed : p.resume? e = some q)
    (h : p.wp G Q past) :
    G past e.1 ∧ q.wp G Q (past ++ [e]) := by
  obtain ⟨k, rfl, rfl⟩ := resume?_eq_some.1 resumed
  exact ⟨h.1, h.2 e.2⟩

end

end Prog

end Lib
