import Lynks.Lib.Coroutines

/-!
# Operations made of smaller ones

`Prog.expand impl` runs each operation of a program as a call of `impl o`, a program over finer
operations. `Calls` reads a past over the finer operations as a list of such calls, and
`Position` says where an expanded program is: between two calls, or inside one.

Coroutines over the finer operations refine those over the coarser ones (`Refines`) if a call
changes the shared resource, as the coarser coroutines see it, in its last answer only. Then every
run of the finer pool is matched by a run of the coarser one (`Refines.simulates`), in which each
call happens when it returns, whatever other calls it overlapped with.
-/

namespace Lib
set_option autoImplicit false

namespace Prog

variable {Op Op' : Type} {Ans : Op → Type} {Ans' : Op' → Type} {ξ α : Type}

/-- Each operation replaced by a program over finer operations. -/
def expand (impl : (o : Op) → Prog Op' Ans' ξ (Ans o)) : Prog Op Ans ξ α → Prog Op' Ans' ξ α
  | done r => done r
  | act o k => impl o >>= fun a => expand impl (k a)

section

variable [DecidableEq Op]

/-- What is left of a program after these answers, if it asks for them. -/
def after : Prog Op Ans ξ α → List (Event Op Ans) → Option (Prog Op Ans ξ α)
  | p, [] => some p
  | p, e :: es => (p.resume? e).bind fun q => after q es

theorem after_snoc {p q : Prog Op Ans ξ α} {es : List (Event Op Ans)} {e : Event Op Ans}
    (left : p.after es = some q) : p.after (es ++ [e]) = q.resume? e := by
  induction es generalizing p with
  | nil =>
    obtain rfl := Option.some.inj left
    simp only [List.nil_append, after]
    cases p.resume? e <;> rfl
  | cons f es ih =>
    obtain ⟨next, resumed, rest⟩ := Option.bind_eq_some_iff.1 left
    simp only [List.cons_append, after, resumed, Option.bind_some]
    exact ih rest

/-- What is left is still within the precondition. -/
theorem after_wp {G : List (Event Op Ans) → Op → Prop}
    {Q : List (Event Op Ans) → Outcome ξ α → Prop} {p q : Prog Op Ans ξ α}
    {past es : List (Event Op Ans)} (sound : p.wp G Q past) (left : p.after es = some q) :
    q.wp G Q (past ++ es) := by
  induction es generalizing p past with
  | nil =>
    obtain rfl := Option.some.inj left
    rwa [List.append_nil]
  | cons e es ih =>
    obtain ⟨next, resumed, rest⟩ := Option.bind_eq_some_iff.1 left
    have continued := ih (resume?_wp resumed sound).2 rest
    rwa [List.append_assoc] at continued

/-- What is left asks for is allowed. -/
theorem after_allowed {G : List (Event Op Ans) → Op → Prop}
    {Q : List (Event Op Ans) → Outcome ξ α → Prop} {p : Prog Op Ans ξ α}
    {es : List (Event Op Ans)} {o : Op} {k : Ans o → Prog Op Ans ξ α} (sound : p.wp G Q [])
    (left : p.after es = some (act o k)) : G es o := (after_wp sound left).1

theorem after_ended {G : List (Event Op Ans) → Op → Prop}
    {Q : List (Event Op Ans) → Outcome ξ α → Prop} {p : Prog Op Ans ξ α}
    {es : List (Event Op Ans)} {r : Outcome ξ α} (sound : p.wp G Q [])
    (left : p.after es = some (done r)) : Q es r := after_wp sound left

/-- What is left of a program is its own precondition: the answers so far say where it is. -/
theorem wp_after {body p : Prog Op Ans ξ α} {past : List (Event Op Ans)}
    (left : body.after past = some p) :
    p.wp (fun past o => ∃ k, body.after past = some (act o k))
      (fun past r => body.after past = some (done r)) past := by
  induction p generalizing past with
  | done r => exact left
  | act o k ih =>
    refine ⟨⟨k, left⟩, fun a => ih a ?_⟩
    rw [after_snoc left]
    simp [resume?]

@[simp] theorem after_nil (p : Prog Op Ans ξ α) : p.after [] = some p := rfl

@[simp] theorem after_act (o : Op) (k : Ans o → Prog Op Ans ξ α) (a : Ans o)
    (es : List (Event Op Ans)) : (act o k).after (⟨o, a⟩ :: es) = (k a).after es := by
  simp [after, resume?]

/-- A program that has ended in a value is left with what is bound to the value. -/
theorem after_bind {β : Type} {p : Prog Op Ans ξ α} {f : α → Prog Op Ans ξ β}
    {es : List (Event Op Ans)} {a : α} (ended : p.after es = some (done (.ok a)))
    (fs : List (Event Op Ans)) : (p >>= f).after (es ++ fs) = (f a).after fs := by
  induction es generalizing p with
  | nil =>
    obtain rfl := Option.some.inj ended
    rfl
  | cons e es ih =>
    obtain ⟨next, resumed, rest⟩ := Option.bind_eq_some_iff.1 ended
    obtain ⟨k, rfl, rfl⟩ := resume?_eq_some.1 resumed
    rw [List.cons_append, act_bind, after_act]
    exact ih rest

/-- A value is not caught. -/
theorem after_catchAll {handler : ξ → Prog Op Ans ξ α} {p : Prog Op Ans ξ α}
    {es : List (Event Op Ans)} {a : α} (ended : p.after es = some (done (.ok a))) :
    (p.catchAll handler).after es = some (done (.ok a)) := by
  induction es generalizing p with
  | nil =>
    obtain rfl := Option.some.inj ended
    rfl
  | cons e es ih =>
    obtain ⟨next, resumed, rest⟩ := Option.bind_eq_some_iff.1 ended
    obtain ⟨k, rfl, rfl⟩ := resume?_eq_some.1 resumed
    rw [catchAll, after_act]
    exact ih rest

end

end Prog

open Prog

section

variable {Op Op' : Type} {Ans : Op → Type} {Ans' : Op' → Type} {ξ α : Type}
  [DecidableEq Op'] (impl : (o : Op) → Prog Op' Ans' ξ (Ans o))

/-- Every call asks for something, and returns unless it is left waiting. -/
structure Implements : Prop where
  starts : ∀ o, ∃ o' k, impl o = act o' k
  returns : ∀ o seg r, (impl o).after seg = some (done r) → ∃ a, r = .ok a

/-- A past made of calls that have returned, one for each event. -/
inductive Calls : List (Event Op' Ans') → List (Event Op Ans) → Prop where
  | none : Calls [] []
  | call {past' seg : List (Event Op' Ans')} {past : List (Event Op Ans)} {o : Op} {a : Ans o}
      (earlier : Calls past' past) (returned : (impl o).after seg = some (done (.ok a))) :
      Calls (past' ++ seg) (past ++ [⟨o, a⟩])

/-- Where an expanded program is, and the program it expands. -/
inductive Position (past' : List (Event Op' Ans')) (past : List (Event Op Ans)) :
    Prog Op' Ans' ξ α → Prog Op Ans ξ α → Prop where
  | ended (r : Outcome ξ α) (calls : Calls impl past' past) :
      Position past' past (done r) (done r)
  | inside (before seg : List (Event Op' Ans')) (o : Op) (k : Ans o → Prog Op Ans ξ α) (o' : Op')
      (k' : Ans' o' → Prog Op' Ans' ξ (Ans o)) (calls : Calls impl before past)
      (split : past' = before ++ seg) (left : (impl o).after seg = some (act o' k')) :
      Position past' past (act o' k' >>= fun a => expand impl (k a)) (act o k)

variable {impl}

/-- An expanded program is at its first call. -/
theorem Position.of_calls (implements : Implements impl) {past' : List (Event Op' Ans')}
    {past : List (Event Op Ans)} (calls : Calls impl past' past) (p : Prog Op Ans ξ α) :
    Position impl past' past (expand impl p) p := by
  cases p with
  | done r => exact .ended r calls
  | act o k =>
    obtain ⟨o', k', first⟩ := implements.starts o
    have entered := Position.inside past' [] o k o' k' calls (List.append_nil _).symm
      (congrArg some first)
    rwa [← first] at entered

/-- **One answer.** The call goes on, or it returns and the program it belongs to is answered. -/
theorem Position.step [DecidableEq Op] (implements : Implements impl) {past' : List (Event Op' Ans')}
    {past : List (Event Op Ans)} {p' q' : Prog Op' Ans' ξ α} {p : Prog Op Ans ξ α}
    {e : Event Op' Ans'} (position : Position impl past' past p' p)
    (resumed : p'.resume? e = some q') :
    ∃ o seg r, (impl o).after (seg ++ [e]) = some r ∧
      ((∃ o' k', r = act o' k') ∧ Position impl (past' ++ [e]) past q' p ∨
        ∃ a q, r = done (.ok a) ∧ p.resume? ⟨o, a⟩ = some q ∧
          Position impl (past' ++ [e]) (past ++ [⟨o, a⟩]) q' q) := by
  cases position with
  | ended r calls => cases resumed
  | inside before seg o k o' k' calls split left =>
    subst split
    obtain ⟨rest, same, rfl⟩ := resume?_eq_some.1 resumed
    obtain ⟨e', answer⟩ := e
    injection same with same continuation
    subst same
    obtain rfl := eq_of_heq continuation
    have later : (impl o).after (seg ++ [⟨o', answer⟩]) = some (k' answer) := by
      rw [after_snoc left]
      exact resume?_eq_some.2 ⟨k', rfl, rfl⟩
    refine ⟨o, seg, k' answer, later, ?_⟩
    change (_ ∧ Position impl _ _ (k' answer >>= fun a => expand impl (k a)) _) ∨ ∃ a q, _ ∧ _ ∧
      Position impl _ _ (k' answer >>= fun a => expand impl (k a)) q
    rw [List.append_assoc]
    cases goesOn : k' answer with
    | act o'' k'' =>
      rw [goesOn] at later
      exact Or.inl ⟨⟨o'', k'', rfl⟩, .inside before _ o k o'' k'' calls rfl later⟩
    | done r =>
      rw [goesOn] at later
      obtain ⟨a, rfl⟩ := implements.returns o _ r later
      refine Or.inr ⟨a, k a, rfl, resume?_eq_some.2 ⟨k, rfl, rfl⟩, ?_⟩
      exact .of_calls implements (Calls.call calls later) (k a)

/-- A finer operation is one of a call that is allowed where it is. -/
def WithinCall (impl : (o : Op) → Prog Op' Ans' ξ (Ans o)) (G : List (Event Op Ans) → Op → Prop)
    (L : Op → List (Event Op' Ans') → Op' → Prop) (past' : List (Event Op' Ans')) (o' : Op') :
    Prop :=
  ∃ before seg past o, past' = before ++ seg ∧ Calls impl before past ∧ G past o ∧ L o seg o'

/-- A finer past is made of calls, and the past they stand for is one to end over. -/
def OverCalls (impl : (o : Op) → Prog Op' Ans' ξ (Ans o))
    (Q : List (Event Op Ans) → Outcome ξ α → Prop) (past' : List (Event Op' Ans'))
    (r : Outcome ξ α) : Prop :=
  ∃ past, Calls impl past' past ∧ Q past r

/-- **The rule for expanded programs.** What each call keeps to and what the coarser program keeps
to, the expanded program keeps to. -/
theorem wp_expand {L : (o : Op) → List (Event Op' Ans') → Op' → Prop}
    {R : (o : Op) → List (Event Op' Ans') → Outcome ξ (Ans o) → Prop}
    (contract : ∀ o, (impl o).wp (L o) (R o) []) (implements : Implements impl)
    {G : List (Event Op Ans) → Op → Prop} {Q : List (Event Op Ans) → Outcome ξ α → Prop}
    {p : Prog Op Ans ξ α} {past' : List (Event Op' Ans')} {past : List (Event Op Ans)}
    (calls : Calls impl past' past) (sound : p.wp G Q past) :
    (expand impl p).wp (WithinCall impl G L) (OverCalls impl Q) past' := by
  induction p generalizing past' past with
  | done r => exact ⟨past, calls, sound⟩
  | act o k ih =>
    -- the rest of the call, wherever it is
    have rest (r : Prog Op' Ans' ξ (Ans o)) : ∀ seg, (impl o).after seg = some r →
        (r >>= fun a => expand impl (k a)).wp (WithinCall impl G L) (OverCalls impl Q)
          (past' ++ seg) := by
      induction r with
      | done x =>
        intro seg left
        obtain ⟨a, rfl⟩ := implements.returns o seg x left
        exact ih a (Calls.call calls left) (sound.2 a)
      | act o' k' ih' =>
        intro seg left
        refine ⟨⟨past', seg, past, o, rfl, calls, sound.1, after_allowed (contract o) left⟩, ?_⟩
        intro a
        have next : (impl o).after (seg ++ [⟨o', a⟩]) = some (k' a) := by
          rw [after_snoc left]
          exact resume?_eq_some.2 ⟨k', rfl, rfl⟩
        have later := ih' a _ next
        rwa [← List.append_assoc] at later
    have whole := rest (impl o) [] rfl
    rwa [List.append_nil] at whole

end

/-! ## Pools -/

section

variable {σ σ' ρ κ κ' β β' Op Op' : Type} {Ans : Op → Type} {Ans' : Op' → Type} {ξ α : Type}
  [DecidableEq Op']

/-- The finer coroutines are the coarser ones with each operation a call, and only the last
answer of a call changes what the coarser ones see of the resource. -/
structure Refines (C' : Coroutines σ' ρ κ' β' Op' Ans' ξ α) (C : Coroutines σ ρ κ β Op Ans ξ α)
    (impl : (o : Op) → Prog Op' Ans' ξ (Ans o)) (view : σ' → σ) : Prop where
  implements : Implements impl
  init : view C'.init = C.init
  body : ∀ request, C'.body request = expand impl (C.body request)
  silent : ∀ s hint e t o seg o' k, (impl o).after (seg ++ [e]) = some (act o' k) →
    C'.react s hint e = some t → view t = view s
  returns : ∀ s hint e t o seg a, (impl o).after (seg ++ [e]) = some (done (.ok a)) →
    C'.react s hint e = some t → ∃ hint', C.react (view s) hint' ⟨o, a⟩ = some (view t)
  background : ∀ s b t, C'.background s b = some t →
    view t = view s ∨ ∃ b', C.background (view s) b' = some (view t)

variable {C' : Coroutines σ' ρ κ' β' Op' Ans' ξ α} {C : Coroutines σ ρ κ β Op Ans ξ α}
  {impl : (o : Op) → Prog Op' Ans' ξ (Ans o)} {view : σ' → σ}

/-- The two pools run the same requests, each finer coroutine at a position of the coarser one. -/
structure Matched (impl : (o : Op) → Prog Op' Ans' ξ (Ans o)) (view : σ' → σ)
    (h' : List (Entry σ' ρ κ' Op' Ans')) (h : List (Entry σ ρ κ Op Ans))
    (s' : Pool σ' ρ Op' Ans' ξ α) (s : Pool σ ρ Op Ans ξ α) : Prop where
  shared : s.shared = view s'.shared
  length : s.tasks.length = s'.tasks.length
  tasks : ∀ (i : Nat) (task' : Task ρ Op' Ans' ξ α), s'.tasks[i]? = some task' →
    ∃ task, s.tasks[i]? = some task ∧ task.request = task'.request ∧
      Position impl (Coroutines.pastOf i h') (Coroutines.pastOf i h) task'.program task.program

variable {h' : List (Entry σ' ρ κ' Op' Ans')} {h : List (Entry σ ρ κ Op Ans)}
  {s' t' : Pool σ' ρ Op' Ans' ξ α} {s : Pool σ ρ Op Ans ξ α}

theorem Matched.start (matched : Matched impl view h' h s' s) (implements : Implements impl)
    (known' : ∀ x ∈ h', x.task < s'.tasks.length) (known : ∀ x ∈ h, x.task < s.tasks.length)
    (request : ρ) (program : Prog Op Ans ξ α) :
    Matched impl view h' h { s' with tasks := s'.tasks ++ [⟨request, expand impl program⟩] }
      { s with tasks := s.tasks ++ [⟨request, program⟩] } := by
  refine ⟨matched.shared, by simp [matched.length], fun i task' found => ?_⟩
  rcases Nat.lt_or_ge i s'.tasks.length with less | more
  · obtain ⟨task, here, rest⟩ :=
      matched.tasks i task' ((List.getElem?_append_left less).symm.trans found)
    have less' : i < s.tasks.length := matched.length ▸ less
    exact ⟨task, (List.getElem?_append_left less').trans here, rest⟩
  · rw [List.getElem?_append_right more, List.getElem?_singleton] at found
    obtain ⟨first, new⟩ := Option.ite_none_right_eq_some.1 found
    obtain rfl := Option.some.inj new
    obtain rfl : i = s'.tasks.length := by omega
    refine ⟨⟨request, program⟩, by simp [← matched.length], rfl, ?_⟩
    rw [Coroutines.pastOf_eq_nil fun x mem => Nat.ne_of_lt (known' x mem),
      Coroutines.pastOf_eq_nil fun x mem => Nat.ne_of_lt (matched.length ▸ known x mem)]
    exact .of_calls implements .none program

/-- An answer that the coarser pool does not see. -/
theorem Matched.silent (matched : Matched impl view h' h s' s) {x : Entry σ' ρ κ' Op' Ans'}
    {task' : Task ρ Op' Ans' ξ α} {task : Task ρ Op Ans ξ α} {program' : Prog Op' Ans' ξ α}
    {shared' : σ'} (here' : x.task < s'.tasks.length) (here : s.tasks[x.task]? = some task)
    (request : task.request = task'.request) (same : view shared' = view s'.shared)
    (position : Position impl (Coroutines.pastOf x.task h' ++ [x.event])
      (Coroutines.pastOf x.task h) program' task.program) :
    Matched impl view (h' ++ [x]) h
      { shared := shared', tasks := s'.tasks.set x.task { task' with program := program' } } s := by
  refine ⟨matched.shared.trans same.symm, by simp [matched.length], fun j other found => ?_⟩
  by_cases own : x.task = j
  · subst own
    rw [List.getElem?_set_self here'] at found
    obtain rfl := Option.some.inj found
    refine ⟨task, here, request, ?_⟩
    rw [Coroutines.pastOf_snoc_self]
    exact position
  · rw [List.getElem?_set_ne own] at found
    rw [Coroutines.pastOf_snoc_other own]
    exact matched.tasks j other found

/-- The last answer of a call, and the answer to it in the coarser pool. -/
theorem Matched.returns (matched : Matched impl view h' h s' s) {x : Entry σ' ρ κ' Op' Ans'}
    {y : Entry σ ρ κ Op Ans} (number : y.task = x.task) {task' : Task ρ Op' Ans' ξ α}
    {task : Task ρ Op Ans ξ α} {program' : Prog Op' Ans' ξ α} {program : Prog Op Ans ξ α}
    {shared' : σ'} (here' : x.task < s'.tasks.length) (request : task.request = task'.request)
    (position : Position impl (Coroutines.pastOf x.task h' ++ [x.event])
      (Coroutines.pastOf x.task h ++ [y.event]) program' program) :
    Matched impl view (h' ++ [x]) (h ++ [y])
      { shared := shared', tasks := s'.tasks.set x.task { task' with program := program' } }
      { shared := view shared', tasks := s.tasks.set x.task { task with program } } := by
  refine ⟨rfl, by simp [matched.length], fun j other found => ?_⟩
  by_cases own : x.task = j
  · subst own
    rw [List.getElem?_set_self here'] at found
    obtain rfl := Option.some.inj found
    refine ⟨{ task with program }, List.getElem?_set_self (matched.length ▸ here'), request, ?_⟩
    rw [Coroutines.pastOf_snoc_self, ← number, Coroutines.pastOf_snoc_self, number]
    exact position
  · rw [List.getElem?_set_ne own] at found
    obtain ⟨task, here, rest⟩ := matched.tasks j other found
    refine ⟨task, (List.getElem?_set_ne own).trans here, ?_⟩
    rw [Coroutines.pastOf_snoc_other own, Coroutines.pastOf_snoc_other (number ▸ own)]
    exact rest

/-- **Refinement.** Every run of the finer pool is matched by a run of the coarser one. -/
theorem Refines.simulates [DecidableEq Op] (refines : Refines C' C impl view)
    {es' : List (PoolEvent ρ κ' β' Op' Ans')} (run' : C'.machine.Run es' s') :
    ∃ es s, C.machine.Run es s ∧ Matched impl view (C'.history es') (C.history es) s' s := by
  refine Machine.Run.induct (M := C'.machine) (I := fun es' s' =>
    ∃ es s, C.machine.Run es s ∧ Matched impl view (C'.history es') (C.history es) s' s) ?_ ?_ run'
  · refine ⟨[], _, rfl, refines.init.symm, rfl, ?_⟩
    intro i task' found
    cases found
  · rintro es' s' e t' run' ⟨es, s, run, matched⟩ taken
    have logged : C'.history (es' ++ [e]) = C'.history es' ++ (Coroutines.entry s' e).toList :=
      Machine.log_snoc run'
    have logs {f u} (_ : C.machine.step s f = some u) :
        C.history (es ++ [f]) = C.history es ++ (Coroutines.entry s f).toList :=
      Machine.log_snoc run
    rcases Coroutines.step_cases taken with ⟨request, rfl, quiet, rfl⟩ |
      ⟨i, hint, event, task', program', shared', rfl, found, resumed, reacted, wrote, rfl⟩ |
      ⟨b, shared', rfl, moved, quiet, rfl⟩
    · have next : C.machine.step s (.start request) = some { s with
          tasks := s.tasks ++ [⟨request, C.body request⟩] } := rfl
      refine ⟨_, _, run.snoc next, ?_⟩
      rw [logged, logs next, quiet, refines.body]
      simp only [Coroutines.entry, Option.toList_none, List.append_nil]
      exact matched.start refines.implements (fun x mem => Coroutines.task_lt run' mem)
        (fun x mem => Coroutines.task_lt run mem) request (C.body request)
    · have here' : i < s'.tasks.length := (List.getElem?_eq_some_iff.1 found).1
      obtain ⟨task, here, request, position⟩ := matched.tasks i task' found
      obtain ⟨o, seg, r, left, ⟨⟨o', k', rfl⟩, goesOn⟩ | ⟨a, q, rfl, answered, goesOn⟩⟩ :=
        position.step refines.implements resumed
      · refine ⟨es, s, run, ?_⟩
        rw [logged, wrote, Option.toList_some]
        exact matched.silent (x := ⟨i, task'.request, hint, event, s'.shared⟩) here' here request
          (refines.silent _ _ _ _ _ _ _ _ left reacted) goesOn
      · obtain ⟨hint', admitted⟩ := refines.returns _ _ _ _ _ _ _ left reacted
        have next : C.machine.step s (.answer i hint' ⟨o, a⟩) = some
            { shared := view shared', tasks := s.tasks.set i { task with program := q } } := by
          simp [Coroutines.machine, Coroutines.step, here, answered, matched.shared, admitted]
        have shown : C.history (es ++ [.answer i hint' ⟨o, a⟩]) =
            C.history es ++ [⟨i, task.request, hint', ⟨o, a⟩, s.shared⟩] := by
          rw [logs next]
          simp [Coroutines.entry, here]
        refine ⟨_, _, run.snoc next, ?_⟩
        rw [logged, shown, wrote, Option.toList_some]
        exact matched.returns (x := ⟨i, task'.request, hint, event, s'.shared⟩)
          (y := ⟨i, task.request, hint', ⟨o, a⟩, s.shared⟩) rfl here' request goesOn
    · rw [logged, quiet, Option.toList_none, List.append_nil]
      rcases refines.background _ _ _ moved with unseen | ⟨b', moved'⟩
      · exact ⟨es, s, run, matched.shared.trans unseen.symm, matched.length, matched.tasks⟩
      have next : C.machine.step s (.background b') = some { s with shared := view shared' } := by
        simp [Coroutines.machine, Coroutines.step, matched.shared, moved']
      refine ⟨_, _, run.snoc next, ?_⟩
      rw [logs next]
      simp only [Coroutines.entry, Option.toList_none, List.append_nil]
      exact ⟨rfl, matched.length, matched.tasks⟩

end

end Lib
