import Lynks.Lib.Effects
import Lynks.Lib.Machine

/-!
# Coroutines over a shared resource

A pool runs any number of coroutines (`Prog`) over one shared resource. A step starts a
coroutine, answers the operation one of them waits for, or changes the resource behind their
backs. The history of a run has one entry for each operation performed, with the resource it
met.

A weakest precondition with history is proved of each coroutine alone, against any answers.
`followed_of_run` is its adequacy: in every run of the pool, whatever else runs in between,
each coroutine is still within the precondition over its own past. So every operation is one
the precondition allows (`allowed_of_run`), and `traced` carries an invariant of the resource that
speaks of the history. As long as such an invariant gives an answer to whatever is asked but what
is blocked, a coroutine can be run alone until it halts (`can_halt`), and all of them in turn
(`can_drain`).
-/

namespace Lib
set_option autoImplicit false

/-! ## The past of one of many -/

section

variable {χ ε : Type} {who : χ → Nat} {what : χ → ε} {i : Nat} {h : List χ}

/-- What a history tells of `i`, in order. -/
def pastBy (who : χ → Nat) (what : χ → ε) (i : Nat) (h : List χ) : List ε :=
  (h.filter (who · = i)).map what

theorem pastBy_append (h h' : List χ) :
    pastBy who what i (h ++ h') = pastBy who what i h ++ pastBy who what i h' := by
  simp [pastBy]

theorem pastBy_snoc_self (h : List χ) (x : χ) :
    pastBy who what (who x) (h ++ [x]) = pastBy who what (who x) h ++ [what x] := by
  simp [pastBy]

theorem pastBy_snoc_other {x : χ} (other : who x ≠ i) :
    pastBy who what i (h ++ [x]) = pastBy who what i h := by
  simp [pastBy, other]

theorem mem_pastBy {e : ε} : e ∈ pastBy who what i h ↔ ∃ x ∈ h, who x = i ∧ what x = e := by
  simp [pastBy, and_assoc]

theorem pastBy_eq_nil (unheard : ∀ x ∈ h, who x ≠ i) : pastBy who what i h = [] := by
  simp only [pastBy, List.map_eq_nil_iff, List.filter_eq_nil_iff, decide_eq_true_eq]
  exact unheard

/-- The first thing told is where its first entry is. -/
theorem pastBy_eq_cons {e : ε} {es : List ε} (past : pastBy who what i h = e :: es) :
    ∃ before x after, h = before ++ x :: after ∧ who x = i ∧ what x = e ∧
      pastBy who what i after = es := by
  obtain ⟨x, xs, filtered, rfl, rest⟩ := List.map_eq_cons_iff.1 past
  obtain ⟨before, after, rfl, -, own, filtered⟩ := List.filter_eq_cons_iff.1 filtered
  have later : pastBy who what i after = es := by
    rw [pastBy, filtered, rest]
  exact ⟨before, x, after, rfl, of_decide_eq_true own, rfl, later⟩

/-- The last thing told is where its last entry is. -/
theorem pastBy_eq_snoc {e : ε} {es : List ε} (past : pastBy who what i h = es ++ [e]) :
    ∃ before x after, h = before ++ x :: after ∧ who x = i ∧ what x = e ∧
      pastBy who what i before = es := by
  obtain ⟨xs, last, filtered, rfl, single⟩ := List.map_eq_append_iff.1 past
  obtain ⟨x, rfl, rfl⟩ := List.map_eq_singleton_iff.1 single
  obtain ⟨before, rest, rfl, front, back⟩ := List.filter_eq_append_iff.1 filtered
  obtain ⟨between, after, rfl, none, own, -⟩ := List.filter_eq_cons_iff.1 back
  refine ⟨before ++ between, x, after, by simp, of_decide_eq_true own, rfl, ?_⟩
  unfold pastBy
  rw [List.filter_append, front, List.filter_eq_nil_iff.2 none, List.append_nil]

/-- Another way to write the entries. -/
theorem pastBy_map {χ' : Type} {who' : χ' → Nat} {what' : χ' → ε} {f : χ → χ'}
    (same : ∀ x, who' (f x) = who x ∧ what' (f x) = what x) :
    pastBy who' what' i (h.map f) = pastBy who what i h := by
  simp only [pastBy, List.filter_map, List.map_map, Function.comp_def, same]

end

/-! ## The pool -/

/-- A coroutine and the request it was started for. -/
structure Task (ρ Op : Type) (Ans : Op → Type) (ξ α : Type) where
  request : ρ
  program : Prog Op Ans ξ α

/-- The resource, and every coroutine ever started. -/
structure Pool (σ ρ Op : Type) (Ans : Op → Type) (ξ α : Type) where
  shared : σ
  tasks : List (Task ρ Op Ans ξ α)

inductive PoolEvent (ρ κ β Op : Type) (Ans : Op → Type) where
  | start (request : ρ)
  /-- the operation a coroutine waits for is answered; `hint` is what else decides the answer -/
  | answer (task : Nat) (hint : κ) (event : Prog.Event Op Ans)
  | background (b : β)

/-- An operation performed. -/
structure Entry (σ ρ κ Op : Type) (Ans : Op → Type) where
  task : Nat
  request : ρ
  hint : κ
  event : Prog.Event Op Ans
  /-- the resource before the operation -/
  shared : σ

/-- What the coroutines of a pool are, and how the resource answers them. -/
structure Coroutines (σ ρ κ β Op : Type) (Ans : Op → Type) (ξ α : Type) where
  init : σ
  body : ρ → Prog Op Ans ξ α
  /-- the resource after an answer, if it can give it -/
  react : σ → κ → Prog.Event Op Ans → Option σ
  background : σ → β → Option σ

namespace Coroutines

variable {σ ρ κ β Op : Type} {Ans : Op → Type} {ξ α : Type} [DecidableEq Op]
variable (C : Coroutines σ ρ κ β Op Ans ξ α)

def step (s : Pool σ ρ Op Ans ξ α) : PoolEvent ρ κ β Op Ans → Option (Pool σ ρ Op Ans ξ α)
  | .start request => some { s with tasks := s.tasks ++ [⟨request, C.body request⟩] }
  | .answer i hint event =>
    match s.tasks[i]? with
    | none => none
    | some task =>
      match task.program.resume? event, C.react s.shared hint event with
      | some program, some shared =>
        some { shared, tasks := s.tasks.set i { task with program } }
      | _, _ => none
  | .background b => (C.background s.shared b).map fun shared => { s with shared }

/-- The pool, from no coroutines. -/
def machine : Machine (Pool σ ρ Op Ans ξ α) (PoolEvent ρ κ β Op Ans) where
  init := { shared := C.init, tasks := [] }
  step := C.step

/-- The operation a step performs. -/
def entry (s : Pool σ ρ Op Ans ξ α) : PoolEvent ρ κ β Op Ans → Option (Entry σ ρ κ Op Ans)
  | .answer i hint event =>
    s.tasks[i]?.map fun task => ⟨i, task.request, hint, event, s.shared⟩
  | _ => none

/-- The operations performed in a run, in order. -/
def history (es : List (PoolEvent ρ κ β Op Ans)) : List (Entry σ ρ κ Op Ans) :=
  C.machine.log (fun s e => (entry s e).toList) es

/-- What one coroutine has been answered. -/
abbrev pastOf (i : Nat) (h : List (Entry σ ρ κ Op Ans)) : List (Prog.Event Op Ans) :=
  pastBy Entry.task Entry.event i h

section

variable {h : List (Entry σ ρ κ Op Ans)}

omit [DecidableEq Op] in
theorem pastOf_snoc_self (h : List (Entry σ ρ κ Op Ans)) (x : Entry σ ρ κ Op Ans) :
    pastOf x.task (h ++ [x]) = pastOf x.task h ++ [x.event] := pastBy_snoc_self h x

omit [DecidableEq Op] in
theorem pastOf_snoc_other {i : Nat} {x : Entry σ ρ κ Op Ans} (other : x.task ≠ i) :
    pastOf i (h ++ [x]) = pastOf i h := pastBy_snoc_other other

omit [DecidableEq Op] in
theorem pastOf_eq_nil {i : Nat} (unheard : ∀ x ∈ h, x.task ≠ i) : pastOf i h = [] :=
  pastBy_eq_nil unheard

end

variable {C} {s t : Pool σ ρ Op Ans ξ α}

/-- What a step can do. -/
theorem step_cases {e : PoolEvent ρ κ β Op Ans} (taken : C.step s e = some t) :
    (∃ request, e = .start request ∧ entry s e = (none : Option (Entry σ ρ κ Op Ans)) ∧
      t = { s with tasks := s.tasks ++ [⟨request, C.body request⟩] }) ∨
    (∃ i hint event task program shared, e = .answer i hint event ∧
      s.tasks[i]? = some task ∧ task.program.resume? event = some program ∧
      C.react s.shared hint event = some shared ∧
      entry s e = some ⟨i, task.request, hint, event, s.shared⟩ ∧
      t = { shared, tasks := s.tasks.set i { task with program } }) ∨
    (∃ b shared, e = .background b ∧ C.background s.shared b = some shared ∧
      entry s e = (none : Option (Entry σ ρ κ Op Ans)) ∧ t = { s with shared }) := by
  cases e with
  | start request => exact Or.inl ⟨request, rfl, rfl, (Option.some.inj taken).symm⟩
  | answer i hint event =>
    simp only [step] at taken
    split at taken
    · cases taken
    · rename_i task found
      split at taken
      · rename_i program shared resumed admitted
        refine Or.inr (Or.inl ⟨i, hint, event, task, program, shared, rfl, found, resumed,
          admitted, ?_, (Option.some.inj taken).symm⟩)
        simp [entry, found]
      · cases taken
  | background b =>
    obtain ⟨shared, moved, rfl⟩ := Option.map_eq_some_iff.1 taken
    exact Or.inr (Or.inr ⟨b, shared, rfl, moved, rfl, rfl⟩)

/-! ## Adequacy -/

section

variable (G : ρ → List (Prog.Event Op Ans) → Op → Prop)
  (Q : ρ → List (Prog.Event Op Ans) → Outcome ξ α → Prop)

/-- Every coroutine is within its precondition over its own past. -/
structure Followed (h : List (Entry σ ρ κ Op Ans)) (s : Pool σ ρ Op Ans ξ α) : Prop where
  within : ∀ (i : Nat) (task : Task ρ Op Ans ξ α), s.tasks[i]? = some task →
    task.program.wp (G task.request) (Q task.request) (pastOf i h)
  known : ∀ x ∈ h, ∃ task, s.tasks[x.task]? = some task ∧ task.request = x.request

end

variable {G : ρ → List (Prog.Event Op Ans) → Op → Prop}
  {Q : ρ → List (Prog.Event Op Ans) → Outcome ξ α → Prop} {h : List (Entry σ ρ κ Op Ans)}

omit [DecidableEq Op] in
theorem Followed.start (followed : Followed G Q h s) {request : ρ} {program : Prog Op Ans ξ α}
    (sound : program.wp (G request) (Q request) []) :
    Followed G Q h { s with tasks := s.tasks ++ [⟨request, program⟩] } := by
  constructor
  · intro i task found
    rcases Nat.lt_or_ge i s.tasks.length with less | more
    · exact followed.within i task ((List.getElem?_append_left less).symm.trans found)
    · rw [List.getElem?_append_right more, List.getElem?_singleton] at found
      obtain ⟨-, new⟩ := Option.ite_none_right_eq_some.1 found
      obtain rfl := Option.some.inj new
      -- nothing has been performed under a number not given out yet
      have unheard : pastOf i h = [] := by
        apply pastBy_eq_nil
        rintro x mem rfl
        obtain ⟨task, known, -⟩ := followed.known x mem
        exact absurd (List.getElem?_eq_some_iff.1 known).1 (Nat.not_lt_of_le more)
      rw [unheard]
      exact sound
  · intro x mem
    obtain ⟨task, known, request⟩ := followed.known x mem
    have len : x.task < s.tasks.length := (List.getElem?_eq_some_iff.1 known).1
    exact ⟨task, (List.getElem?_append_left len).trans known, request⟩

theorem Followed.answer (followed : Followed G Q h s) {i : Nat} {hint : κ}
    {event : Prog.Event Op Ans} {task : Task ρ Op Ans ξ α} {program : Prog Op Ans ξ α}
    (shared : σ) (found : s.tasks[i]? = some task)
    (resumed : task.program.resume? event = some program) :
    Followed G Q (h ++ [⟨i, task.request, hint, event, s.shared⟩])
      { shared, tasks := s.tasks.set i { task with program } } := by
  have len : i < s.tasks.length := (List.getElem?_eq_some_iff.1 found).1
  obtain ⟨-, continued⟩ := Prog.resume?_wp resumed (followed.within i task found)
  constructor
  · intro j task' found'
    by_cases same : i = j
    · subst same
      rw [List.getElem?_set_self len] at found'
      obtain rfl := Option.some.inj found'
      have own := pastOf_snoc_self h ⟨i, task.request, hint, event, s.shared⟩
      exact own ▸ continued
    · rw [List.getElem?_set_ne same] at found'
      rw [pastOf_snoc_other same]
      exact followed.within j task' found'
  · intro x mem
    rcases List.mem_append.1 mem with mem | mem
    · obtain ⟨task', known, request⟩ := followed.known x mem
      by_cases same : i = x.task
      · rw [← same, found] at known
        obtain rfl := Option.some.inj known
        exact ⟨{ task with program }, same ▸ List.getElem?_set_self len, request⟩
      · exact ⟨task', (List.getElem?_set_ne same).trans known, request⟩
    · obtain rfl := List.mem_singleton.1 mem
      exact ⟨{ task with program }, List.getElem?_set_self len, rfl⟩

theorem Followed.step (sound : ∀ request, (C.body request).wp (G request) (Q request) [])
    (followed : Followed G Q h s) {e : PoolEvent ρ κ β Op Ans} (taken : C.step s e = some t) :
    Followed G Q (h ++ (entry s e).toList) t := by
  rcases step_cases taken with ⟨request, rfl, silent, rfl⟩ |
    ⟨i, hint, event, task, program, shared, rfl, found, resumed, -, written, rfl⟩ |
    ⟨b, shared, rfl, -, silent, rfl⟩
  · rw [silent, Option.toList_none, List.append_nil]
    exact followed.start (sound request)
  · rw [written, Option.toList_some]
    exact followed.answer shared found resumed
  · rw [silent, Option.toList_none, List.append_nil]
    exact ⟨followed.within, followed.known⟩

variable {es : List (PoolEvent ρ κ β Op Ans)}

/-- **Adequacy.** What each coroutine is sure to keep to alone, it keeps to in every run of the
pool. -/
theorem followed_of_run (sound : ∀ request, (C.body request).wp (G request) (Q request) [])
    (run : C.machine.Run es s) : Followed G Q (C.history es) s := by
  refine Machine.Run.induct (M := C.machine) (I := fun es s => Followed G Q (C.history es) s)
    ?_ ?_ run
  · constructor
    · intro i task found
      cases found
    · intro x mem
      cases mem
  · intro es s e t run followed taken
    rw [history, Machine.log_snoc run]
    exact followed.step sound taken

/-- The coroutine of an entry is one of those started. -/
theorem task_lt (run : C.machine.Run es s) {x : Entry σ ρ κ Op Ans} (mem : x ∈ C.history es) :
    x.task < s.tasks.length := by
  have followed := followed_of_run (G := fun _ _ _ => True) (Q := fun _ _ _ => True)
    (fun request => Prog.wp_trivial _ _) run
  obtain ⟨task, known, -⟩ := followed.known x mem
  exact (List.getElem?_eq_some_iff.1 known).1

/-- An entry of a history, with the run that leads to it. -/
theorem entry_at (run : C.machine.Run es s) {before after : List (Entry σ ρ κ Op Ans)}
    {x : Entry σ ρ κ Op Ans} (split : C.history es = before ++ x :: after) :
    ∃ fs u task program shared, C.machine.Run fs u ∧ before = C.history fs ∧
      u.shared = x.shared ∧ u.tasks[x.task]? = some task ∧ task.request = x.request ∧
      task.program.resume? x.event = some program ∧
      C.react x.shared x.hint x.event = some shared := by
  obtain ⟨fs, e, gs, u, t, rfl, run', taken, rfl, written⟩ := run.entry? split
  rcases step_cases taken with ⟨_, rfl, silent, -⟩ |
    ⟨i, hint, event, task, program, shared, rfl, found, resumed, admitted, wrote, -⟩ |
    ⟨_, _, rfl, -, silent, -⟩
  · rw [silent] at written
    cases written
  · rw [wrote] at written
    obtain rfl := Option.some.inj written
    exact ⟨fs, u, task, program, shared, run', rfl, rfl, found, rfl, resumed, admitted⟩
  · rw [silent] at written
    cases written

/-- Every operation performed is one the precondition allows. -/
theorem allowed_of_run (sound : ∀ request, (C.body request).wp (G request) (Q request) [])
    (run : C.machine.Run es s) {before after : List (Entry σ ρ κ Op Ans)}
    {x : Entry σ ρ κ Op Ans} (split : C.history es = before ++ x :: after) :
    G x.request (pastOf x.task before) x.event.1 := by
  obtain ⟨fs, u, task, program, _, run', rfl, -, found, request, resumed, -⟩ := entry_at run split
  rw [← request]
  exact (Prog.resume?_wp resumed ((followed_of_run sound run').within x.task task found)).1

/-- **The rule for the resource.** An invariant that speaks of the history holds after every run
if every answer that the precondition allows and the resource gives keeps it, and every change
behind the coroutines' backs. -/
theorem traced {I : List (Entry σ ρ κ Op Ans) → σ → Prop}
    (sound : ∀ request, (C.body request).wp (G request) (Q request) []) (start : I [] C.init)
    (answer : ∀ h x shared, I h x.shared → G x.request (pastOf x.task h) x.event.1 →
      C.react x.shared x.hint x.event = some shared → I (h ++ [x]) shared)
    (background : ∀ h s b t, I h s → C.background s b = some t → I h t)
    (run : C.machine.Run es s) : I (C.history es) s.shared := by
  refine Machine.Run.induct (M := C.machine) (I := fun es s => I (C.history es) s.shared)
    start ?_ run
  intro es s e t run inv taken
  have followed := followed_of_run sound run
  rw [history, Machine.log_snoc run]
  rcases step_cases taken with ⟨request, rfl, silent, rfl⟩ |
    ⟨i, hint, event, task, program, shared, rfl, found, resumed, admitted, written, rfl⟩ |
    ⟨b, shared, rfl, moved, silent, rfl⟩
  · rw [silent, Option.toList_none, List.append_nil]
    exact inv
  · rw [written, Option.toList_some]
    obtain ⟨allowed, -⟩ := Prog.resume?_wp resumed (followed.within i task found)
    exact answer _ ⟨i, task.request, hint, event, s.shared⟩ shared inv allowed admitted
  · rw [silent, Option.toList_none, List.append_nil]
    exact background _ s.shared b shared inv moved

/-! ## Progress -/

omit [DecidableEq Op] in
/-- A coroutine that goes on was started for the same request. -/
theorem requests_set {i : Nat} {task : Task ρ Op Ans ξ α} (found : s.tasks[i]? = some task)
    (program : Prog Op Ans ξ α) :
    (s.tasks.set i { task with program }).map (·.request) = s.tasks.map (·.request) := by
  obtain ⟨len, here⟩ := List.getElem?_eq_some_iff.1 found
  have len' : i < (s.tasks.map (·.request)).length := by simpa using len
  have request : task.request = (s.tasks.map (·.request))[i] := by simp [here]
  rw [List.map_set, request, List.set_getElem_self]

/-- An answer to the coroutine `i`, of those given. -/
def Answering (given : (o : Op) → Ans o → Prop) (i : Nat) (e : PoolEvent ρ κ β Op Ans) : Prop :=
  ∃ hint event, e = .answer i hint event ∧ given event.1 event.2

section

variable {n : Nat} {given : (o : Op) → Ans o → Prop} {blocked : Op → Prop}
  {J : Nat → List (Entry σ ρ κ Op Ans) → σ → Prop}

/-- A coroutine that is allowed nothing after `n` operations performs no more. -/
theorem pastOf_length_le (sound : ∀ request, (C.body request).wp (G request) (Q request) [])
    (short : ∀ request past o, G request past o → past.length < n) (run : C.machine.Run es s)
    (i : Nat) : (pastOf i (C.history es)).length ≤ n := by
  refine traced (C := C) (I := fun h _ => (pastOf i h).length ≤ n) sound (Nat.zero_le n) ?_
    (fun _ _ _ _ bound _ => bound) run
  intro h x shared bound allowed _
  by_cases own : x.task = i
  · subst own
    rw [pastOf_snoc_self, List.length_append]
    exact short _ _ _ allowed
  · rw [pastOf_snoc_other own]
    exact bound

/-- The coroutine `i` can be run, alone and with answers of those given, until it has ended or waits
for something blocked. -/
def CanHalt (C : Coroutines σ ρ κ β Op Ans ξ α) (given : (o : Op) → Ans o → Prop)
    (blocked : Op → Prop) (J : Nat → List (Entry σ ρ κ Op Ans) → σ → Prop)
    (es : List (PoolEvent ρ κ β Op Ans)) (s : Pool σ ρ Op Ans ξ α) (i : Nat) (request : ρ) : Prop :=
  ∃ fs t program, C.machine.Run (es ++ fs) t ∧ (∀ e ∈ fs, Answering given i e) ∧
    t.tasks = s.tasks.set i ⟨request, program⟩ ∧ program.Halted blocked ∧
    J i (C.history (es ++ fs)) t.shared

theorem CanHalt.here (run : C.machine.Run es s) {i : Nat} {task : Task ρ Op Ans ξ α}
    (found : s.tasks[i]? = some task) (halted : task.program.Halted blocked)
    (inv : J i (C.history es) s.shared) : CanHalt C given blocked J es s i task.request := by
  refine ⟨[], s, task.program, by simpa using run, by simp, ?_, halted, by simpa using inv⟩
  obtain ⟨len, same⟩ := List.getElem?_eq_some_iff.1 found
  rw [← same, List.set_getElem_self]

/-- **One coroutine goes on alone**, if as long as `J` holds of it the resource has an answer to
what it asks that keeps `J`. -/
theorem can_halt (sound : ∀ request, (C.body request).wp (G request) (Q request) [])
    (answers : ∀ i h shared request o, J i h shared → G request (pastOf i h) o → ¬ blocked o →
      ∃ hint a shared', C.react shared hint ⟨o, a⟩ = some shared' ∧ given o a ∧
        J i (h ++ [⟨i, request, hint, ⟨o, a⟩, shared⟩]) shared')
    (run : C.machine.Run es s) {i : Nat} {task : Task ρ Op Ans ξ α}
    (found : s.tasks[i]? = some task) (inv : J i (C.history es) s.shared) :
    CanHalt C given blocked J es s i task.request := by
  obtain ⟨request, program⟩ := task
  induction program generalizing es s with
  | done r => exact .here run found trivial inv
  | act o k ih =>
    by_cases waits : blocked o
    · exact .here run found waits inv
    have followed := followed_of_run sound run
    obtain ⟨allowed, -⟩ : G request (pastOf i (C.history es)) o ∧ _ := followed.within i _ found
    obtain ⟨hint, a, shared, reacted, here, kept⟩ := answers i _ _ request o inv allowed waits
    have len : i < s.tasks.length := (List.getElem?_eq_some_iff.1 found).1
    have taken : C.machine.step s (.answer i hint ⟨o, a⟩) = some
        { shared, tasks := s.tasks.set i ⟨request, k a⟩ } := by
      simp [machine, step, found, Prog.resume?, reacted]
    have logged : C.history (es ++ [.answer i hint ⟨o, a⟩]) =
        C.history es ++ [⟨i, request, hint, ⟨o, a⟩, s.shared⟩] := by
      rw [history, Machine.log_snoc run]
      simp [entry, found, history]
    obtain ⟨fs, t, program, ran, mine, ended, halted, still⟩ :=
      ih a (run.snoc taken) (logged ▸ kept) (List.getElem?_set_self len)
    rw [List.append_assoc] at ran still
    refine ⟨_, t, program, ran, ?_, ?_, halted, still⟩
    · rintro e (_ | ⟨_, mem⟩)
      · exact ⟨hint, _, rfl, here⟩
      · exact mine e mem
    · rw [ended]
      exact List.set_set ..

/-- **All coroutines go on**, one after the other, if the one that has halted leaves the resource
to the others. -/
theorem can_drain (sound : ∀ request, (C.body request).wp (G request) (Q request) [])
    (answers : ∀ i h shared request o, J i h shared → G request (pastOf i h) o → ¬ blocked o →
      ∃ hint a shared', C.react shared hint ⟨o, a⟩ = some shared' ∧ given o a ∧
        J i (h ++ [⟨i, request, hint, ⟨o, a⟩, shared⟩]) shared')
    (leaves : ∀ es s i task, C.machine.Run es s → s.tasks[i]? = some task →
      task.program.Halted blocked → J i (C.history es) s.shared → ∀ j, J j (C.history es) s.shared)
    (run : C.machine.Run es s) (inv : ∀ j, J j (C.history es) s.shared) :
    ∃ fs t, C.machine.Run (es ++ fs) t ∧ (∀ e ∈ fs, ∃ i, Answering given i e) ∧
      t.tasks.map (·.request) = s.tasks.map (·.request) ∧
      (∀ task ∈ t.tasks, task.program.Halted blocked) ∧
      ∀ j, J j (C.history (es ++ fs)) t.shared := by
  -- the first `k` have halted
  have upTo : ∀ k ≤ s.tasks.length, ∃ fs t, C.machine.Run (es ++ fs) t ∧
      (∀ e ∈ fs, ∃ i, Answering given i e) ∧
      t.tasks.map (·.request) = s.tasks.map (·.request) ∧
      (∀ j, J j (C.history (es ++ fs)) t.shared) ∧
      ∀ i < k, ∀ task, t.tasks[i]? = some task → task.program.Halted blocked := by
    intro k
    induction k with
    | zero =>
      intro _
      exact ⟨[], s, by simpa using run, by simp, rfl, by simpa using inv, by simp⟩
    | succ k ih =>
      intro less
      obtain ⟨fs, t, ran, answered, same, kept, halted⟩ := ih (Nat.le_of_succ_le less)
      have length : t.tasks.length = s.tasks.length := by
        simpa using congrArg List.length same
      have len : k < t.tasks.length := length ▸ less
      have found : t.tasks[k]? = some t.tasks[k] := List.getElem?_eq_getElem len
      obtain ⟨gs, u, program, ran', mine, last, here, still⟩ :=
        can_halt sound answers ran found (kept k)
      have now : u.tasks[k]? = some ⟨t.tasks[k].request, program⟩ := by
        rw [last]
        exact List.getElem?_set_self len
      rw [List.append_assoc] at ran' still
      refine ⟨fs ++ gs, u, ran', ?_, ?_, leaves _ u k _ ran' now here still, ?_⟩
      · intro e mem
        rcases List.mem_append.1 mem with old | new
        · exact answered e old
        · exact ⟨k, mine e new⟩
      · rw [last, requests_set found, same]
      · intro i below task there
        by_cases own : i = k
        · subst own
          rw [now] at there
          obtain rfl := Option.some.inj there
          exact here
        · rw [last, List.getElem?_set_ne (Ne.symm own)] at there
          exact halted i (by omega) task there
  obtain ⟨fs, t, ran, answered, same, kept, halted⟩ := upTo s.tasks.length (Nat.le_refl _)
  have length : t.tasks.length = s.tasks.length := by simpa using congrArg List.length same
  refine ⟨fs, t, ran, answered, same, fun task mem => ?_, kept⟩
  obtain ⟨i, there⟩ := List.mem_iff_getElem?.1 mem
  exact halted i (length ▸ (List.getElem?_eq_some_iff.1 there).1) task there

end

end Coroutines

end Lib
