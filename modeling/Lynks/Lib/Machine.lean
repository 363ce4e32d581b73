import Mathlib.Data.List.Basic
import Mathlib.Data.List.Induction

/-!
# Guarded step machines and their runs

A `Machine` is an initial state and an executable step: `step s e = some t` when event `e`
is enabled at `s` and leads to `t`. `Run es s` says that the events `es`, in order, lead
from the initial state to `s`; one interleaving of a concurrent component is one list of
events. `Run.induct` carries an invariant that may also speak of the events already taken.

`Always P es` asks `P` of every state a run passes through and `Guarded G es` asks `G` of
every step it takes, in the state before the step. `always_of_guarded` is the invariant rule
for guarded runs. Two rules show a guard to be exact: `always_iff_guarded` when its failure
shows in the very next state, `always_extended_iff_guarded` when it may take further steps.
-/

namespace Lib

/-- An initial state and a guarded, executable step. -/
structure Machine (σ ε : Type) where
  init : σ
  step : σ → ε → Option σ

namespace Machine
set_option autoImplicit false

variable {σ ε ω : Type} (M : Machine σ ε)

/-- The state after the events `es` from `s`; `none` if one of them is not enabled. -/
def exec (s : σ) : List ε → Option σ
  | [] => some s
  | e :: es => (M.step s e).bind fun t => exec t es

/-- The events `es` lead from the initial state to `s`. -/
def Run (es : List ε) (s : σ) : Prop := M.exec M.init es = some s

/-- Some run reaches `s`. -/
def Reachable (s : σ) : Prop := ∃ es, M.Run es s

theorem exec_append (s : σ) (es fs : List ε) :
    M.exec s (es ++ fs) = (M.exec s es).bind fun t => M.exec t fs := by
  induction es generalizing s with
  | nil => rfl
  | cons e es ih =>
    cases taken : M.step s e with
    | none => simp [exec, taken]
    | some t => simp [exec, taken, ih]

variable {M}

theorem run_nil {s : σ} : M.Run [] s ↔ M.init = s := by
  simp [Run, exec]

theorem run_snoc {es : List ε} {e : ε} {t : σ} :
    M.Run (es ++ [e]) t ↔ ∃ s, M.Run es s ∧ M.step s e = some t := by
  simp only [Run, exec_append, exec, Option.bind_eq_some_iff]
  constructor
  · rintro ⟨s, run, u, taken, same⟩
    exact ⟨s, run, by rw [taken, same]⟩
  · rintro ⟨s, run, taken⟩
    exact ⟨s, run, t, taken, rfl⟩

theorem Run.snoc {es : List ε} {e : ε} {s t : σ} (run : M.Run es s)
    (taken : M.step s e = some t) : M.Run (es ++ [e]) t :=
  run_snoc.2 ⟨s, run, taken⟩

theorem run_append {es fs : List ε} {t : σ} :
    M.Run (es ++ fs) t ↔ ∃ s, M.Run es s ∧ M.exec s fs = some t := by
  rw [Run, exec_append]
  exact Option.bind_eq_some_iff

theorem Run.unique {es : List ε} {s t : σ} (run : M.Run es s) (run' : M.Run es t) : s = t :=
  Option.some.inj (run.symm.trans run')

/-- **Run induction.** `I` holds of the empty run and every step extends it. -/
theorem Run.induct {I : List ε → σ → Prop} (start : I [] M.init)
    (next : ∀ es s e t, M.Run es s → I es s → M.step s e = some t → I (es ++ [e]) t) :
    ∀ {es s}, M.Run es s → I es s := by
  intro es
  induction es using List.reverseRecOn with
  | nil =>
    intro s run
    exact run_nil.1 run ▸ start
  | append_singleton es e ih =>
    intro t run
    obtain ⟨s, before, taken⟩ := run_snoc.1 run
    exact next es s e t before (ih before) taken

/-- The invariant rule: `I` holds initially and every enabled step preserves it. -/
theorem Run.invariant {I : σ → Prop} (start : I M.init)
    (next : ∀ s e t, I s → M.step s e = some t → I t) {es : List ε} {s : σ}
    (run : M.Run es s) : I s :=
  Run.induct (I := fun _ => I) start (fun _ s e t _ => next s e t) run

/-- The same from any state. -/
theorem exec_invariant {I : σ → Prop} (next : ∀ s e t, I s → M.step s e = some t → I t)
    {es : List ε} {s t : σ} (start : I s) (run : M.exec s es = some t) : I t := by
  induction es generalizing s with
  | nil => exact Option.some.inj run ▸ start
  | cons e es ih =>
    obtain ⟨u, taken, rest⟩ := Option.bind_eq_some_iff.1 run
    exact ih (next s e u start taken) rest

theorem Run.reachable {es : List ε} {s : σ} (run : M.Run es s) : M.Reachable s := ⟨es, run⟩

/-! ## Properties of whole runs -/

variable (M)

/-- `P` holds in every state the run of `es` passes through. -/
def Always (P : σ → Prop) (es : List ε) : Prop :=
  ∀ before s, before <+: es → M.Run before s → P s

/-- `G` holds of every step of the run of `es`, in the state before the step. -/
def Guarded (G : σ → ε → Prop) (es : List ε) : Prop :=
  ∀ before e s, before ++ [e] <+: es → M.Run before s → G s e

variable {M}

theorem prefix_snoc {es fs : List ε} {e : ε} :
    es <+: fs ++ [e] ↔ es <+: fs ∨ es = fs ++ [e] := by
  rw [List.prefix_concat_iff]
  exact or_comm

/-- Each event of a run is enabled where the run takes it. -/
theorem Run.step_of_prefix {es before : List ε} {e : ε} {s u : σ} (run : M.Run es s)
    (part : before ++ [e] <+: es) (run' : M.Run before u) : ∃ t, M.step u e = some t := by
  obtain ⟨after, rfl⟩ := part
  rw [Run, exec_append] at run
  obtain ⟨t, first, -⟩ := Option.bind_eq_some_iff.1 run
  obtain ⟨u', run'', taken⟩ := run_snoc.1 first
  exact ⟨t, run''.unique run' ▸ taken⟩

theorem always_snoc {P : σ → Prop} {es : List ε} {e : ε} :
    M.Always P (es ++ [e]) ↔ M.Always P es ∧ ∀ t, M.Run (es ++ [e]) t → P t := by
  constructor
  · intro always
    exact ⟨fun before s h => always before s (prefix_snoc.2 (Or.inl h)),
      fun t => always _ t List.prefix_rfl⟩
  · rintro ⟨always, last⟩ before s h run
    rcases prefix_snoc.1 h with h | rfl
    · exact always before s h run
    · exact last s run

theorem guarded_nil {G : σ → ε → Prop} : M.Guarded G [] := by
  simp [Guarded]

theorem guarded_snoc {G : σ → ε → Prop} {es : List ε} {e : ε} :
    M.Guarded G (es ++ [e]) ↔ M.Guarded G es ∧ ∀ s, M.Run es s → G s e := by
  constructor
  · intro guarded
    exact ⟨fun before f s h => guarded before f s (prefix_snoc.2 (Or.inl h)),
      fun s => guarded es e s List.prefix_rfl⟩
  · rintro ⟨guarded, last⟩ before f s h run
    rcases prefix_snoc.1 h with h | same
    · exact guarded before f s h run
    · obtain ⟨same, final⟩ := List.append_inj' same rfl
      subst same
      cases final
      exact last s run

theorem Guarded.and {A G : σ → ε → Prop} {es : List ε} (assumed : M.Guarded A es)
    (guarded : M.Guarded G es) : M.Guarded (fun s e => A s e ∧ G s e) es :=
  fun before e s inside run => ⟨assumed before e s inside run, guarded before e s inside run⟩

/-- Steps the guard never forbids keep a run guarded. -/
theorem Guarded.append {G : σ → ε → Prop} {es fs : List ε} (guarded : M.Guarded G es)
    (free : ∀ e ∈ fs, ∀ s, G s e) : M.Guarded G (es ++ fs) := by
  induction fs using List.reverseRecOn with
  | nil => simpa using guarded
  | append_singleton fs e ih =>
    rw [← List.append_assoc]
    refine guarded_snoc.2 ⟨ih fun f mem => free f (List.mem_append_left _ mem), fun s _ => ?_⟩
    exact free e (by simp) s

theorem Always.final {P : σ → Prop} {es : List ε} {s : σ} (always : M.Always P es)
    (run : M.Run es s) : P s :=
  always es s List.prefix_rfl run

/-- An invariant preserved by every guarded step holds at the end of a guarded run. -/
theorem Run.guarded_invariant {I : σ → Prop} {G : σ → ε → Prop} (start : I M.init)
    (next : ∀ s e t, I s → G s e → M.step s e = some t → I t) {es : List ε} {s : σ}
    (run : M.Run es s) (guarded : M.Guarded G es) : I s := by
  revert guarded
  refine Run.induct (I := fun es s => M.Guarded G es → I s) (fun _ => start) ?_ run
  intro es s e t run ih taken guarded
  obtain ⟨earlier, last⟩ := guarded_snoc.1 guarded
  exact next s e t (ih earlier) (last s run) taken

/-- The same for every state of the run. -/
theorem always_of_guarded {I P : σ → Prop} {G : σ → ε → Prop} (start : I M.init)
    (next : ∀ s e t, I s → G s e → M.step s e = some t → I t) (use : ∀ s, I s → P s)
    {es : List ε} (guarded : M.Guarded G es) : M.Always P es := by
  intro before s h run
  refine use s (Run.guarded_invariant start next run ?_)
  intro earlier e u h'
  exact guarded earlier e u (h'.trans h)

/-- **The exact guard of a property**, in runs whose steps meet the assumption `A`. If guarded
steps keep the invariant behind `P`, and an unguarded step out of it lands outside `P`, then a
run stays in `P` exactly when all its steps are guarded. -/
theorem always_iff_guarded_assuming {I P : σ → Prop} {A G : σ → ε → Prop} (start : I M.init)
    (next : ∀ s e t, I s → A s e → G s e → M.step s e = some t → I t) (use : ∀ s, I s → P s)
    (fail : ∀ s e t, I s → A s e → ¬ G s e → M.step s e = some t → ¬ P t)
    {es : List ε} {s : σ} (run : M.Run es s) (assumed : M.Guarded A es) :
    M.Always P es ↔ M.Guarded G es := by
  have kept : ∀ s e t, I s → A s e ∧ G s e → M.step s e = some t → I t :=
    fun s e t inv both => next s e t inv both.1 both.2
  constructor
  · revert assumed
    refine Run.induct (I := fun es _ => M.Guarded A es → M.Always P es → M.Guarded G es)
      (fun _ _ => guarded_nil) ?_ run
    intro es s e t run ih taken assumed always
    obtain ⟨earlier, last⟩ := always_snoc.1 always
    obtain ⟨assumed, now⟩ := guarded_snoc.1 assumed
    have guarded := ih assumed earlier
    refine guarded_snoc.2 ⟨guarded, fun s' run' => ?_⟩
    obtain rfl := run.unique run'
    by_contra unguarded
    have inv : I s := run.guarded_invariant start kept (assumed.and guarded)
    exact fail s e t inv (now s run) unguarded taken (last t (run.snoc taken))
  · exact fun guarded => always_of_guarded start kept use (assumed.and guarded)

/-- The same with nothing assumed. -/
theorem always_iff_guarded {I P : σ → Prop} {G : σ → ε → Prop} (start : I M.init)
    (next : ∀ s e t, I s → G s e → M.step s e = some t → I t) (use : ∀ s, I s → P s)
    (fail : ∀ s e t, I s → ¬ G s e → M.step s e = some t → ¬ P t)
    {es : List ε} {s : σ} (run : M.Run es s) : M.Always P es ↔ M.Guarded G es :=
  always_iff_guarded_assuming (A := fun _ _ => True) start
    (fun s e t inv _ => next s e t inv) use (fun s e t inv _ => fail s e t inv) run
    fun _ _ _ _ _ => trivial

/-- What an unguarded step brings about and no step undoes holds after every run that is not
guarded. -/
theorem Run.of_unguarded {B : σ → Prop} {G : σ → ε → Prop}
    (brings : ∀ s e t, M.Reachable s → ¬ G s e → M.step s e = some t → B t)
    (keeps : ∀ s e t, M.Reachable s → B s → M.step s e = some t → B t) {es : List ε} {s : σ}
    (run : M.Run es s) (unguarded : ¬ M.Guarded G es) : B s := by
  revert unguarded
  refine Run.induct (I := fun es s => ¬ M.Guarded G es → B s)
    (fun unguarded => absurd guarded_nil unguarded) ?_ run
  intro es s e t run ih taken unguarded
  by_cases earlier : M.Guarded G es
  · have here : ¬ G s e := by
      intro free
      refine unguarded (guarded_snoc.2 ⟨earlier, fun s' run' => ?_⟩)
      rw [← run.unique run']
      exact free
    exact brings s e t run.reachable here taken
  · exact keeps s e t run.reachable (ih earlier) taken

/-- **The exact guard of a property that shows later.** Guarded steps keep the invariant behind
`P`; an unguarded step leaves a mark that no step removes and that some of the events `late`,
which are never unguarded, bring to light. Then a run and its extensions by `late` events stay
in `P` exactly when all the run's steps are guarded. -/
theorem always_extended_iff_guarded {I P B : σ → Prop} {G : σ → ε → Prop} {late : ε → Prop}
    (start : I M.init) (next : ∀ s e t, I s → G s e → M.step s e = some t → I t)
    (use : ∀ s, I s → P s) (free : ∀ e, late e → ∀ s, G s e)
    (brings : ∀ s e t, M.Reachable s → ¬ G s e → M.step s e = some t → B t)
    (keeps : ∀ s e t, M.Reachable s → B s → M.step s e = some t → B t)
    (shown : ∀ es s, M.Run es s → B s →
      ∃ fs t, (∀ e ∈ fs, late e) ∧ M.Run (es ++ fs) t ∧ ¬ P t)
    {es : List ε} {s : σ} (run : M.Run es s) :
    (∀ fs, (∀ e ∈ fs, late e) → M.Always P (es ++ fs)) ↔ M.Guarded G es := by
  constructor
  · intro always
    by_contra unguarded
    have marked : B s := Run.of_unguarded brings keeps run unguarded
    obtain ⟨fs, t, later, extended, broken⟩ := shown es s run marked
    exact broken ((always fs later).final extended)
  · intro guarded fs later
    apply always_of_guarded start next use
    exact guarded.append fun e mem => free e (later e mem)

/-- What an unguarded step brings about is there after every run that is not guarded, unless `P`
has failed on the way. -/
theorem Run.of_unguarded_until {P B : σ → Prop} {G : σ → ε → Prop}
    (brings : ∀ s e t, M.Reachable s → ¬ G s e → M.step s e = some t → B t)
    (keeps : ∀ s e t, M.Reachable s → B s → M.step s e = some t → B t ∨ ¬ P t) {es : List ε} {s : σ}
    (run : M.Run es s) (unguarded : ¬ M.Guarded G es) : B s ∨ ¬ M.Always P es := by
  revert unguarded
  refine Run.induct (I := fun es s => ¬ M.Guarded G es → B s ∨ ¬ M.Always P es)
    (fun unguarded => absurd guarded_nil unguarded) ?_ run
  intro es s e t run ih taken unguarded
  have failed (now : ¬ M.Always P es ∨ ¬ P t) : ¬ M.Always P (es ++ [e]) := by
    intro always
    obtain ⟨earlier, last⟩ := always_snoc.1 always
    rcases now with before | here
    · exact before earlier
    · exact here (last t (run.snoc taken))
  by_cases earlier : M.Guarded G es
  · have here : ¬ G s e := by
      intro free
      refine unguarded (guarded_snoc.2 ⟨earlier, fun s' run' => ?_⟩)
      rw [← run.unique run']
      exact free
    exact Or.inl (brings s e t run.reachable here taken)
  · rcases ih earlier with marked | before
    · rcases keeps s e t run.reachable marked taken with still | here
      · exact Or.inl still
      · exact Or.inr (failed (Or.inr here))
    · exact Or.inr (failed (Or.inl before))

/-- **The exact guard of a property that shows later and may then be mended.** As
`always_extended_iff_guarded`, but the mark of an unguarded step may go once `P` has failed. -/
theorem always_until_iff_guarded {I P B : σ → Prop} {G : σ → ε → Prop} {late : ε → Prop}
    (start : I M.init) (next : ∀ s e t, I s → G s e → M.step s e = some t → I t)
    (use : ∀ s, I s → P s) (free : ∀ e, late e → ∀ s, G s e)
    (brings : ∀ s e t, M.Reachable s → ¬ G s e → M.step s e = some t → B t)
    (keeps : ∀ s e t, M.Reachable s → B s → M.step s e = some t → B t ∨ ¬ P t)
    (shown : ∀ es s, M.Run es s → B s →
      ∃ fs t, (∀ e ∈ fs, late e) ∧ M.Run (es ++ fs) t ∧ ¬ P t)
    {es : List ε} {s : σ} (run : M.Run es s) :
    (∀ fs, (∀ e ∈ fs, late e) → M.Always P (es ++ fs)) ↔ M.Guarded G es := by
  constructor
  · intro always
    by_contra unguarded
    rcases run.of_unguarded_until brings keeps unguarded with marked | failed
    · obtain ⟨fs, t, later, extended, broken⟩ := shown es s run marked
      exact broken ((always fs later).final extended)
    · have whole := always [] (by simp)
      rw [List.append_nil] at whole
      exact failed whole
  · intro guarded fs later
    apply always_of_guarded start next use
    exact guarded.append fun e mem => free e (later e mem)

variable (M) in
/-- A guard with a Boolean test, checked along a run by evaluation. -/
def checkGuarded (g : σ → ε → Bool) (s : σ) : List ε → Bool
  | [] => true
  | e :: es => g s e && ((M.step s e).elim true fun t => checkGuarded g t es)

theorem guarded_of_check {g : σ → ε → Bool} {es : List ε}
    (check : M.checkGuarded g M.init es = true) : M.Guarded (fun s e => g s e = true) es := by
  suffices h : ∀ s, M.checkGuarded g s es = true → ∀ before e t, before ++ [e] <+: es →
      M.exec s before = some t → g t e = true from fun before e t => h M.init check before e t
  clear check
  induction es with
  | nil => simp
  | cons e es ih =>
    intro s check before f t h run
    simp only [checkGuarded, Bool.and_eq_true] at check
    cases before with
    | nil =>
      obtain ⟨rfl, -⟩ := List.cons_prefix_cons.1 h
      obtain rfl := Option.some.inj run
      exact check.1
    | cons e' before =>
      obtain ⟨rfl, inner⟩ := List.cons_prefix_cons.1 h
      obtain ⟨u, taken, rest⟩ := Option.bind_eq_some_iff.1 run
      rw [taken] at check
      exact ih u check.2 before f t inner rest

/-! ## What a run shows -/

variable (M)

/-- The outputs of the steps of a run, each step's output read off the state before it. -/
def observe (f : σ → ε → List ω) (s : σ) : List ε → List ω
  | [] => []
  | e :: es => f s e ++ ((M.step s e).elim [] fun t => observe f t es)

/-- The outputs of the run of `es` from the initial state. -/
def log (f : σ → ε → List ω) (es : List ε) : List ω := M.observe f M.init es

variable {M}

theorem observe_append {f : σ → ε → List ω} {es fs : List ε} {s t : σ}
    (run : M.exec s es = some t) :
    M.observe f s (es ++ fs) = M.observe f s es ++ M.observe f t fs := by
  induction es generalizing s with
  | nil =>
    obtain rfl : s = t := Option.some.inj run
    simp [observe]
  | cons e es ih =>
    obtain ⟨u, taken, rest⟩ := Option.bind_eq_some_iff.1 run
    simp [observe, taken, ih rest]

@[simp] theorem observe_singleton (f : σ → ε → List ω) (s : σ) (e : ε) :
    M.observe f s [e] = f s e := by
  cases taken : M.step s e <;> simp [observe, taken]

/-- Steps that output nothing show nothing. -/
theorem observe_nil (s : σ) (es : List ε) :
    M.observe (fun _ _ => ([] : List ω)) s es = [] := by
  induction es generalizing s with
  | nil => rfl
  | cons e es ih => cases taken : M.step s e <;> simp [observe, taken, ih]

@[simp] theorem log_nil {f : σ → ε → List ω} : M.log f [] = [] := rfl

theorem log_snoc {f : σ → ε → List ω} {es : List ε} {e : ε} {s : σ} (run : M.Run es s) :
    M.log f (es ++ [e]) = M.log f es ++ f s e := by
  rw [log, observe_append run]
  cases taken : M.step s e <;> simp [observe, taken, log]

/-- What a log shows was shown by a step out of a reachable state. -/
theorem Run.mem_log {f : σ → ε → List ω} {es : List ε} {s : σ} (run : M.Run es s) {x : ω} :
    x ∈ M.log f es → ∃ u e t, M.Reachable u ∧ M.step u e = some t ∧ x ∈ f u e := by
  refine Run.induct (I := fun es _ => x ∈ M.log f es → ∃ u e t, M.Reachable u ∧
    M.step u e = some t ∧ x ∈ f u e) (fun mem => by simp at mem) ?_ run
  intro es s e t run ih taken mem
  rw [log_snoc run] at mem
  rcases List.mem_append.1 mem with old | new
  · exact ih old
  · exact ⟨s, e, t, run.reachable, taken, new⟩

/-- Each entry of a log with at most one entry for each step was written by a step of the run,
in a state that a run over the earlier events reaches. -/
theorem Run.entry? {f : σ → ε → Option ω} {es : List ε} {s : σ} (run : M.Run es s)
    {before after : List ω} {x : ω}
    (split : M.log (fun s e => (f s e).toList) es = before ++ x :: after) :
    ∃ fs e gs t u, es = fs ++ e :: gs ∧ M.Run fs t ∧ M.step t e = some u ∧
      before = M.log (fun s e => (f s e).toList) fs ∧ f t e = some x := by
  revert after
  refine Run.induct (I := fun es _ => ∀ {after}, M.log (fun s e => (f s e).toList) es =
    before ++ x :: after → ∃ fs e gs t u, es = fs ++ e :: gs ∧ M.Run fs t ∧ M.step t e = some u ∧
      before = M.log (fun s e => (f s e).toList) fs ∧ f t e = some x) (fun h => by simp at h) ?_ run
  intro es s e t run ih taken after split
  have earlier : ∀ {after}, M.log (fun s e => (f s e).toList) es = before ++ x :: after →
      ∃ fs e' gs t u, es ++ [e] = fs ++ e' :: gs ∧ M.Run fs t ∧ M.step t e' = some u ∧
        before = M.log (fun s e => (f s e).toList) fs ∧ f t e' = some x := by
    intro after same
    obtain ⟨fs, e', gs, t', u, rfl, run', taken', before', written⟩ := ih same
    exact ⟨fs, e', gs ++ [e], t', u, by simp, run', taken', before', written⟩
  rw [log_snoc run] at split
  cases written : f s e with
  | none =>
    rw [written, Option.toList_none, List.append_nil] at split
    exact earlier split
  | some y =>
    rw [written, Option.toList_some] at split
    rcases List.eq_nil_or_concat after with rfl | ⟨after, z, rfl⟩
    · obtain ⟨same, last⟩ := List.append_inj' split rfl
      exact ⟨es, e, [], s, t, rfl, run, taken, same.symm, List.singleton_inj.1 last ▸ written⟩
    · rw [List.concat_eq_append, ← List.cons_append, ← List.append_assoc] at split
      exact earlier (List.append_inj' split rfl).1

/-- The same for a log with one entry for each step. -/
theorem Run.entry {f : σ → ε → ω} {es : List ε} {s : σ} (run : M.Run es s) {before after : List ω}
    {x : ω} (split : M.log (fun s e => [f s e]) es = before ++ x :: after) :
    ∃ fs e gs t, es = fs ++ e :: gs ∧ M.Run fs t ∧ before = M.log (fun s e => [f s e]) fs ∧
      x = f t e := by
  obtain ⟨fs, e, gs, t, -, split, run', -, earlier, written⟩ :=
    Run.entry? (f := fun s e => some (f s e)) run split
  exact ⟨fs, e, gs, t, split, run', earlier, (Option.some.inj written).symm⟩

/-- Two outputs that agree on every step out of a reachable state log the same. -/
theorem Run.log_congr {f g : σ → ε → List ω} {es : List ε} {s : σ} (run : M.Run es s)
    (same : ∀ s e t, M.Reachable s → M.step s e = some t → f s e = g s e) :
    M.log f es = M.log g es := by
  refine Run.induct (I := fun es _ => M.log f es = M.log g es) rfl ?_ run
  intro es s e t run ih taken
  rw [log_snoc run, log_snoc run, ih, same s e t run.reachable taken]

/-- Filtering a log is logging the filtered outputs. -/
theorem log_filterMap {ψ : Type} (f : σ → ε → List ω) (g : ω → Option ψ) (es : List ε) :
    (M.log f es).filterMap g = M.log (fun s e => (f s e).filterMap g) es := by
  suffices h : ∀ s, (M.observe f s es).filterMap g = M.observe (fun s e => (f s e).filterMap g) s es
    from h M.init
  induction es with
  | nil => exact fun s => rfl
  | cons e es ih =>
    intro s
    rw [observe, observe, List.filterMap_append]
    cases M.step s e with
    | none => simp
    | some t => simp [ih t]

/-- Outputs that depend on the events alone. -/
theorem Run.log_events {f : ε → List ω} {es : List ε} {s : σ} (run : M.Run es s) :
    M.log (fun _ e => f e) es = es.flatMap f := by
  refine Run.induct (I := fun es _ => M.log (fun _ e => f e) es = es.flatMap f) rfl ?_ run
  intro es s e t run ih _
  rw [log_snoc run, ih, List.flatMap_append]
  simp

/-- **Simulation, with outputs.** Each step of `M` is matched by the events `k` names of `N`,
which show the same; then each run of `M` is matched by a run of `N` with the same log. -/
theorem Run.simulate_log {τ φ : Type} {N : Machine τ φ} {R : σ → τ → Prop}
    {k : σ → ε → List φ} {f : σ → ε → List ω} {g : τ → φ → List ω} (start : R M.init N.init)
    (next : ∀ s e t a, R s a → M.step s e = some t →
      ∃ b, N.exec a (k s e) = some b ∧ R t b ∧ f s e = N.observe g a (k s e))
    {es : List ε} {s : σ} (run : M.Run es s) :
    ∃ a, N.Run (M.log k es) a ∧ R s a ∧ M.log f es = N.log g (M.log k es) := by
  refine Run.induct (I := fun es s =>
    ∃ a, N.Run (M.log k es) a ∧ R s a ∧ M.log f es = N.log g (M.log k es))
    ⟨N.init, rfl, start, rfl⟩ ?_ run
  rintro es s e t run ⟨a, matched, related, same⟩ taken
  obtain ⟨b, moved, related', shown⟩ := next s e t a related taken
  have matched' : N.exec N.init (M.log k es) = some a := matched
  refine ⟨b, ?_, related', ?_⟩
  · rw [Run, log_snoc run, exec_append, matched']
    exact moved
  · rw [log_snoc run, log_snoc run, same, shown]
    exact (observe_append matched').symm

/-- **Simulation.** Each step of `M` is matched by the events `k` names of `N`; then each
run of `M` is matched by a run of `N`. -/
theorem Run.simulate {τ φ : Type} {N : Machine τ φ} {R : σ → τ → Prop} {k : σ → ε → List φ}
    (start : R M.init N.init)
    (next : ∀ s e t a, R s a → M.step s e = some t → ∃ b, N.exec a (k s e) = some b ∧ R t b)
    {es : List ε} {s : σ} (run : M.Run es s) : ∃ a, N.Run (M.log k es) a ∧ R s a := by
  have silent : ∀ s e t a, R s a → M.step s e = some t →
      ∃ b, N.exec a (k s e) = some b ∧ R t b ∧
        ([] : List Unit) = N.observe (fun _ _ => []) a (k s e) := by
    intro s e t a related taken
    obtain ⟨b, moved, related'⟩ := next s e t a related taken
    exact ⟨b, moved, related', (observe_nil _ _).symm⟩
  obtain ⟨a, matched, related, -⟩ := run.simulate_log start silent
  exact ⟨a, matched, related⟩

/-- **Projection, with outputs.** A part of the state that moves only by the events `k` names of
`N` runs as `N` does. -/
theorem Run.project_log {τ φ : Type} {N : Machine τ φ} {π : σ → τ} {k : σ → ε → List φ}
    {f : σ → ε → List ω} {g : τ → φ → List ω} (start : π M.init = N.init)
    (next : ∀ s e t, M.step s e = some t → N.exec (π s) (k s e) = some (π t))
    (shows : ∀ s e, f s e = N.observe g (π s) (k s e)) {es : List ε} {s : σ} (run : M.Run es s) :
    N.Run (M.log k es) (π s) ∧ M.log f es = N.log g (M.log k es) := by
  obtain ⟨a, matched, rfl, same⟩ := run.simulate_log (N := N) (R := fun s a => π s = a) (k := k)
    (f := f) (g := g) start fun s e t a related taken => by
      subst related
      exact ⟨π t, next s e t taken, rfl, shows s e⟩
  exact ⟨matched, same⟩

/-- **Projection.** -/
theorem Run.project {τ φ : Type} {N : Machine τ φ} {π : σ → τ} {k : σ → ε → List φ}
    (start : π M.init = N.init)
    (next : ∀ s e t, M.step s e = some t → N.exec (π s) (k s e) = some (π t))
    {es : List ε} {s : σ} (run : M.Run es s) : N.Run (M.log k es) (π s) :=
  (run.project_log (f := fun _ _ => ([] : List Unit)) (g := fun _ _ => []) start next
    fun _ _ => (observe_nil _ _).symm).1

/-- **A part that moves alone.** Where each step of `M` is one of `N`, a run of `M` from any state is
one of `N`; `j` and `k` say how the two write the steps. -/
theorem exec_lift {τ φ χ : Type} {N : Machine τ φ} {R : σ → τ → Prop} {allowed : χ → Prop}
    {j : χ → ε} {k : χ → φ}
    (next : ∀ s x t a, R s a → allowed x → M.step s (j x) = some t →
      ∃ b, N.step a (k x) = some b ∧ R t b)
    {xs : List χ} {s t : σ} {a : τ} (all : ∀ x ∈ xs, allowed x) (related : R s a)
    (ran : M.exec s (xs.map j) = some t) : ∃ b, N.exec a (xs.map k) = some b ∧ R t b := by
  induction xs generalizing s a with
  | nil =>
    obtain rfl := Option.some.inj ran
    exact ⟨a, rfl, related⟩
  | cons x xs ih =>
    obtain ⟨u, taken, rest⟩ := Option.bind_eq_some_iff.1 ran
    obtain ⟨b, moved, related'⟩ := next s x u a related (all x (by simp)) taken
    obtain ⟨c, later, still⟩ := ih (fun y mem => all y (by simp [mem])) related' rest
    exact ⟨c, Option.bind_eq_some_iff.2 ⟨b, moved, later⟩, still⟩

end Machine

/-! ## Lists of components

A system with a growing number of components keeps them in a list. A step changes one of them
or adds one. -/

/-- A change of one component keeps what holds of all of them. -/
theorem forall_set {α : Type} {P : α → Prop} {xs : List α} (all : ∀ x ∈ xs, P x) {i : Nat} {x : α}
    (new : P x) : ∀ y ∈ xs.set i x, P y := by
  intro y mem
  rcases List.mem_or_eq_of_mem_set mem with old | same
  · exact all y old
  · rw [same]
    exact new

theorem forall_append {α : Type} {P : α → Prop} {xs : List α} (all : ∀ x ∈ xs, P x) {x : α}
    (new : P x) : ∀ y ∈ xs ++ [x], P y := by
  intro y mem
  rcases List.mem_append.1 mem with old | last
  · exact all y old
  · rw [List.mem_singleton.1 last]
    exact new

/-- A change of one component that keeps what is read off it. -/
theorem map_set_same {α β : Type} {f : α → β} {xs : List α} {i : Nat} {x y : α}
    (found : xs[i]? = some x) (same : f y = f x) : (xs.set i y).map f = xs.map f := by
  have here : (xs.map f)[i]? = some (f y) := by
    rw [List.getElem?_map, found, Option.map_some, same]
  obtain ⟨len, at_i⟩ := List.getElem?_eq_some_iff.1 here
  rw [List.map_set, ← at_i, List.set_getElem_self len]

end Lib
