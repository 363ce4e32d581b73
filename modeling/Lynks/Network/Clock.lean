import Lynks.Network.SessionRuns

/-!
# A clock that is set back

The age of a session is a `uint64_t` subtraction of two readings of `system_clock`, which is not
monotonic. A reading before the stored life wraps, and the session looks older than any limit
(`agrees_iff`): it is rejected, and erased by the next pass, in the very millisecond it was
renewed. While no reading is before a stored life, every verdict is the one of the integers
(`verdicts_agree_iff`).
-/

namespace Lynks
set_option autoImplicit false

open Lib

namespace SessionToken

variable {t : SessionToken} {now : UInt64}

/-- Less than 300000 ms of clock time have passed since the last renewal. -/
def isLive (t : SessionToken) (now : UInt64) : Bool :=
  (now.toNat : Int) - (t.lifeMs.toNat : Int) < 300000

/-- The machine test and the integer comparison give one verdict. -/
def agrees (t : SessionToken) (now : UInt64) : Bool := t.isActive now = t.isLive now

/-- The reading is not before the stored life, or so far before that the wrapped difference is
small again. -/
def notSetBack (t : SessionToken) (now : UInt64) : Bool :=
  t.lifeMs.toNat ≤ now.toNat || now.toNat + UInt64.size < t.lifeMs.toNat + 300000

/-- The machine test on the readings as numbers. -/
theorem isActive_iff_mod : t.isActive now = true ↔
    (UInt64.size - t.lifeMs.toNat + now.toNat) % UInt64.size < 300000 := by
  have limit : maxLifeMs.toNat = 300000 := rfl
  simp only [isActive, decide_eq_true_eq, UInt64.lt_iff_toNat_lt, UInt64.toNat_sub, limit]

/-- **The verdict is wrong exactly on a reading before the stored life.** -/
theorem agrees_iff : t.agrees now = true ↔ t.notSetBack now = true := by
  have size : UInt64.size = 18446744073709551616 := rfl
  have life : t.lifeMs.toNat < UInt64.size := t.lifeMs.toNat_lt
  have reading : now.toNat < UInt64.size := now.toNat_lt
  have integers : t.isLive now = true ↔ now.toNat < t.lifeMs.toNat + 300000 := by
    simp only [isLive, decide_eq_true_eq]
    omega
  have same : t.agrees now = true ↔ (t.isActive now = true ↔ t.isLive now = true) := by
    rw [agrees, decide_eq_true_eq, Bool.eq_iff_iff]
  rw [same, isActive_iff_mod, integers]
  simp only [notSetBack, Bool.or_eq_true, decide_eq_true_eq, size] at life reading ⊢
  omega

end SessionToken

namespace SessionHandler

variable {s t : SessionHandler} {op : Op}

/-- The tests an operation makes: which stored session, at which reading. -/
def tests (s : SessionHandler) : Op → List (SessionToken × UInt64)
  | .newSession _ _ _ => []
  | .validateSession token now _ =>
    (s.sessions.find? fun t => token = t.token).toList.map fun t => (t, now)
  | .getUsernameByToken token now =>
    (s.sessions.find? fun t => token = t.token).toList.map fun t => (t, now)
  | .cleanup nows => s.sessions.zip nows

/-- Every test gives the verdict of the integers. -/
def verdictsAgree (s : SessionHandler) (op : Op) : Bool := (s.tests op).all fun p => p.1.agrees p.2

/-- No session is tested at a reading before its life. -/
def clockNotSetBack (s : SessionHandler) (op : Op) : Bool :=
  (s.tests op).all fun p => p.1.notSetBack p.2

/-- The operation rejects no live session, and erases none. -/
def SparesLive (s : SessionHandler) : Op → Prop
  | .newSession _ _ _ => True
  | .validateSession token now refreshed =>
    ∀ t, s.sessions.find? (fun t => token = t.token) = some t → t.isLive now = true →
      (s.validateSession token now refreshed).2 = true
  | .getUsernameByToken token now =>
    ∀ t, s.sessions.find? (fun t => token = t.token) = some t → t.isLive now = true →
      s.getUsernameByToken token now = some t.ownerIdentifier
  | .cleanup nows =>
    ∀ p ∈ s.sessions.zip nows, p.1.isLive p.2 = true → p.1 ∈ (s.cleanupPass nows).sessions

theorem verdictsAgree_iff : s.verdictsAgree op = true ↔ s.clockNotSetBack op = true := by
  simp only [verdictsAgree, clockNotSetBack, List.all_eq_true, SessionToken.agrees_iff]

theorem active_of_live (agree : s.verdictsAgree op = true) {p : SessionToken × UInt64}
    (tested : p ∈ s.tests op) (live : p.1.isLive p.2 = true) : p.1.isActive p.2 = true := by
  have same : p.1.isActive p.2 = p.1.isLive p.2 := by
    simpa [SessionToken.agrees] using List.all_eq_true.1 agree p tested
  rw [same]
  exact live

/-- What is tested is stored, and tested at a reading of the operation. -/
theorem tests_stored {p : SessionToken × UInt64} (tested : p ∈ s.tests op) :
    p.1 ∈ s.sessions ∧ p.2 ∈ op.readings := by
  cases op with
  | newSession username generated now => cases tested
  | validateSession token now refreshed =>
    obtain ⟨t, found, rfl⟩ := List.mem_map.1 tested
    exact ⟨List.mem_of_find?_eq_some (Option.mem_toList.1 found), List.mem_cons_self⟩
  | getUsernameByToken token now =>
    obtain ⟨t, found, rfl⟩ := List.mem_map.1 tested
    exact ⟨List.mem_of_find?_eq_some (Option.mem_toList.1 found), List.mem_cons_self⟩
  | cleanup nows => exact List.of_mem_zip (a := p.1) (b := p.2) tested

/-- A session active at its reading survives the pass. -/
theorem mem_removeInactive {ts : List SessionToken} {nows : List UInt64}
    {p : SessionToken × UInt64} (mem : p ∈ ts.zip nows) (active : p.1.isActive p.2 = true) :
    p.1 ∈ removeInactive ts nows := by
  induction ts generalizing nows with
  | nil => simp at mem
  | cons t ts ih =>
    cases nows with
    | nil => simp at mem
    | cons now nows =>
      rcases List.mem_cons.1 mem with here | later
      · subst here
        simp [removeInactive, active]
      · have kept : p.1 ∈ removeInactive ts nows := ih later
        simp only [removeInactive]
        split
        · exact List.mem_cons_of_mem t kept
        · exact kept

/-- While the verdicts are right, what is live stays. -/
theorem sparesLive_of_agree (agree : s.verdictsAgree op = true) : s.SparesLive op := by
  cases op with
  | newSession username generated now => trivial
  | validateSession token now refreshed =>
    intro t found live
    have active : t.isActive now = true :=
      active_of_live (p := (t, now)) agree (by simp [tests, found]) live
    change (findTokenIn token now refreshed s.sessions).2 = true
    rcases findTokenIn_cases token now refreshed s.sessions with
      ⟨-, inactive⟩ | ⟨before, u, after, -, -, -, -, renewed⟩
    · rw [inactive t found] at active
      cases active
    · rw [renewed]
  | getUsernameByToken token now =>
    intro t found live
    have active : t.isActive now = true :=
      active_of_live (p := (t, now)) agree (by simp [tests, found]) live
    simp [getUsernameByToken, found, active]
  | cleanup nows =>
    intro p mem live
    exact mem_removeInactive mem (active_of_live agree mem live)

/-- Each life was read by an operation before. -/
theorem lives_step (taken : s.step op = some t) :
    ∀ u ∈ t.sessions, (∃ v ∈ s.sessions, v.lifeMs = u.lifeMs) ∨ u.lifeMs ∈ op.readings := by
  intro u mem
  rcases step_sessions taken u mem with
    old | ⟨_, _, now, rfl, rfl, -⟩ | ⟨_, now, refreshed, rfl, v, -, rfl⟩
  · exact Or.inl ⟨u, old, rfl⟩
  · exact Or.inr List.mem_cons_self
  · exact Or.inr (by simp [Op.readings, SessionToken.updateLife])

theorem lives_of_run {maxSessions : UInt16} {ops : List Op}
    (run : (machine maxSessions).Run ops s) :
    ∀ t ∈ s.sessions, t.lifeMs ∈ ops.flatMap Op.readings := by
  refine Machine.Run.induct (M := machine maxSessions) (I := fun ops s =>
    ∀ t ∈ s.sessions, t.lifeMs ∈ ops.flatMap Op.readings) (by simp [machine, new]) ?_ run
  intro ops s op t _ ih taken u mem
  rw [List.flatMap_append, List.mem_append]
  rcases lives_step taken u mem with ⟨v, old, same⟩ | read
  · exact Or.inl (same ▸ ih v old)
  · exact Or.inr (by simpa using read)

/-- A clock that never runs backwards is not set back. -/
theorem not_set_back_of_sorted {maxSessions : UInt16} {ops : List Op}
    (clock : (ops.flatMap Op.readings).Pairwise (· ≤ ·)) :
    (machine maxSessions).Guarded (fun s op => s.clockNotSetBack op = true) ops := by
  rintro before op s ⟨after, rfl⟩ run
  rw [List.append_assoc, List.flatMap_append] at clock
  obtain ⟨-, -, ordered⟩ := List.pairwise_append.1 clock
  simp only [clockNotSetBack, List.all_eq_true]
  intro p tested
  obtain ⟨stored, read⟩ := tests_stored tested
  have later : p.1.lifeMs ≤ p.2 :=
    ordered p.1.lifeMs (lives_of_run run p.1 stored) p.2 (by simp [read])
  simp [SessionToken.notSetBack, UInt64.le_iff_toNat_le.1 later]

/-- **The verdicts of a run are right exactly while the clock is not set back behind a stored
life**, over all sessions stored and over those an operation tests; and then no session renewed
less than 300000 ms of clock time ago is rejected or erased. A clock that never runs backwards
is enough. -/
theorem verdicts_agree_iff (maxSessions : UInt16) (ops : List Op) :
    ((machine maxSessions).Guarded
          (fun s op => ∀ t ∈ s.sessions, ∀ now ∈ op.readings, t.agrees now = true) ops ↔
        (machine maxSessions).Guarded
          (fun s op => ∀ t ∈ s.sessions, ∀ now ∈ op.readings, t.notSetBack now = true) ops) ∧
      ((machine maxSessions).Guarded (fun s op => s.verdictsAgree op = true) ops ↔
        (machine maxSessions).Guarded (fun s op => s.clockNotSetBack op = true) ops) ∧
      ((machine maxSessions).Guarded (fun s op => s.clockNotSetBack op = true) ops →
        (machine maxSessions).Guarded SparesLive ops) ∧
      ((ops.flatMap Op.readings).Pairwise (· ≤ ·) →
        (machine maxSessions).Guarded (fun s op => s.clockNotSetBack op = true) ops) := by
  simp only [verdictsAgree_iff, SessionToken.agrees_iff, true_and]
  constructor
  · intro clock before op s inside run
    apply sparesLive_of_agree
    rw [verdictsAgree_iff]
    exact clock before op s inside run
  · exact not_set_back_of_sorted

/-- A session issued at 1000 is rejected at 999, and erased by a pass at 999. -/
def setBack : List Op :=
  [.newSession "alice" "t" 1000, .validateSession "t" 999 999, .cleanup [999]]

theorem live_session_erased :
    (∃ s, (machine 1).Run setBack s ∧ s.sessions = [] ∧
      history 1 setBack = [(.newSession "alice" "t" 1000, .token (some "t")),
        (.validateSession "t" 999 999, .valid false), (.cleanup [999], .cleaned)]) ∧
    ¬ ∀ maxSessions ops,
      (machine maxSessions).Guarded (fun s op => s.verdictsAgree op = true) ops := by
  refine ⟨⟨_, rfl, rfl, rfl⟩, fun agree => ?_⟩
  have stored : ∃ s, (machine 1).Run [.newSession "alice" "t" 1000] s ∧
      s.verdictsAgree (.validateSession "t" 999 999) = false := ⟨_, rfl, rfl⟩
  obtain ⟨s, run, wrong⟩ := stored
  have right : s.verdictsAgree (.validateSession "t" 999 999) = true :=
    agree 1 setBack [.newSession "alice" "t" 1000] (.validateSession "t" 999 999) s
      ⟨[.cleanup [999]], rfl⟩ run
  rw [wrong] at right
  cases right

end SessionHandler

end Lynks
