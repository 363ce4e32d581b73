import Lynks.Network.Clock

/-!
# Capacity

`new_session` counts the sessions stored, not those that are active, and leaves it to the
cleanup thread to make room: a refusal asks for a pass. So a login may be refused while the
store is full of expired sessions (`refusal_iff`), and after a pass only while it is full of
active ones.
-/

namespace Lynks
set_option autoImplicit false

open Lib

namespace SessionHandler

/-- The sessions active at a reading. -/
def activeAt (s : SessionHandler) (now : UInt64) : List SessionToken :=
  s.sessions.filter fun t => t.isActive now

variable {s : SessionHandler}

theorem newSession_refused {username generated : String} {now : UInt64} :
    (s.newSession username generated now).2 = none ↔ s.sessions.length = s.maxSessions.toNat := by
  have bounded : s.sessions.length ≤ s.maxSessions.toNat := s.bounded
  unfold newSession
  split
  · rename_i room
    simp only [reduceCtorEq, false_iff]
    omega
  · rename_i full
    simp only [true_iff]
    omega

/-- Fewer sessions are active than stored exactly when one stored has expired. -/
theorem activeAt_lt {now : UInt64} :
    (s.activeAt now).length < s.sessions.length ↔ ∃ t ∈ s.sessions, t.isActive now = false := by
  rw [activeAt, List.length_filter_lt_length_iff_exists]
  simp

/-- A pass whose tests all read one time leaves the sessions active then. -/
theorem cleanupPass_replicate {now : UInt64} :
    (s.cleanupPass (List.replicate s.sessions.length now)).sessions = s.activeAt now := by
  change removeInactive s.sessions (List.replicate s.sessions.length now) =
    s.sessions.filter fun t => t.isActive now
  generalize s.sessions = ts
  induction ts with
  | nil => rfl
  | cons t ts ih =>
    cases active : t.isActive now <;> simp [removeInactive, List.replicate_succ, active, ih]

/-- **A login is refused while the store is full.** In every state of every run, `new_session`
refuses exactly when `max_sessions` sessions are stored, and then keeps them and asks for a
pass. It refuses with fewer sessions active exactly when the store is full and an expired
session is in it; right after a pass at the same reading it refuses only if `max_sessions`
sessions are active. -/
theorem refusal_iff {maxSessions : UInt16} {ops : List Op} (run : (machine maxSessions).Run ops s)
    (username generated : String) (now : UInt64) :
    ((s.newSession username generated now).2 = none ↔ s.sessions.length = maxSessions.toNat) ∧
      ((s.newSession username generated now).2 = none →
        (s.newSession username generated now).1.sessions = s.sessions ∧
          (s.newSession username generated now).1.panicClean = true) ∧
      ((s.newSession username generated now).2 = none ∧
          (s.activeAt now).length < maxSessions.toNat ↔
        s.sessions.length = maxSessions.toNat ∧ ∃ t ∈ s.sessions, t.isActive now = false) ∧
      (((s.cleanupPass (List.replicate s.sessions.length now)).newSession username generated
          now).2 = none → (s.activeAt now).length = maxSessions.toNat) := by
  have limit : s.maxSessions = maxSessions := maxSessions_of_run run
  have refused : (s.newSession username generated now).2 = none ↔
      s.sessions.length = maxSessions.toNat := limit ▸ newSession_refused
  refine ⟨refused, fun full => ?_, ?_, fun full => ?_⟩
  · have noRoom : ¬ s.sessions.length < s.maxSessions.toNat := by
      rw [limit, refused.1 full]
      exact Nat.lt_irrefl _
    simp [newSession, noRoom, cleanInactiveSessions]
  · rw [refused, ← activeAt_lt]
    refine and_congr_right fun full => ?_
    rw [full]
  · rw [newSession_refused, cleanupPass_replicate] at full
    rw [full, ← limit]
    rfl

/-- One session is stored, and expired. -/
theorem refusal_iff_expired : ∃ s, (machine 1).Run [.newSession "alice" "t1" 0] s ∧
    (s.newSession "bob" "t2" 300000).2 = none ∧ (s.activeAt 300000).length < 1 := by
  have ran : ∃ s, (machine 1).Run [.newSession "alice" "t1" 0] s ∧ s.sessions.length = 1 ∧
      ∃ t ∈ s.sessions, t.isActive 300000 = false :=
    ⟨_, rfl, rfl, ⟨_, List.mem_singleton_self _, rfl⟩⟩
  obtain ⟨s, run, full, expired⟩ := ran
  obtain ⟨refused, fewer⟩ := (refusal_iff run "bob" "t2" 300000).2.2.1.2 ⟨full, expired⟩
  exact ⟨s, run, refused, fewer⟩

/-- A store full of expired sessions refuses a login. -/
theorem refused_by_expired :
    ¬ ∀ maxSessions ops s, (machine maxSessions).Run ops s → ∀ username generated now,
      (s.newSession username generated now).2 = none →
      (s.activeAt now).length = maxSessions.toNat := by
  intro onlyActive
  have refused : ∃ s, (machine 1).Run [.newSession "alice" "t1" 0] s ∧
      (s.newSession "bob" "t2" 300000).2 = none ∧ s.activeAt 300000 = [] := ⟨_, rfl, rfl, rfl⟩
  obtain ⟨s, run, full, nobody⟩ := refused
  have counted := onlyActive 1 _ s run "bob" "t2" 300000 full
  rw [nobody] at counted
  cases counted

end SessionHandler

end Lynks
