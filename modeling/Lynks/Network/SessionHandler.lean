import Mathlib.Data.List.Basic
import Lynks.Network.SessionToken

/-!
# `session_handler`

The session store: its operations, each under `mtx`, and one pass of the cleanup thread.
Every call of `get_now_ms` is a parameter, so that a run may use any clock; the token that
`generate_token` draws is one too. `SessionHandler` carries the capacity bound, so no
operation can build a store past it.
-/

namespace Lynks
set_option autoImplicit false

/-- `session_handler`, less its random engines, lock and thread. -/
structure SessionHandler where
  sessions : List SessionToken
  maxSessions : UInt16
  panicClean : Bool
  bounded : sessions.length ≤ maxSessions.toNat

namespace SessionHandler

/-- The constructor. -/
def new (maxSessions : UInt16) : SessionHandler :=
  { sessions := [], maxSessions, panicClean := false, bounded := Nat.zero_le _ }

/-- `session_handler::clean_inactive_sessions`: the request for a pass. -/
def cleanInactiveSessions (s : SessionHandler) : SessionHandler := { s with panicClean := true }

/-- `session_handler::new_session`; `generated` is the token drawn when there is room. -/
def newSession (s : SessionHandler) (username generated : String) (now : UInt64) :
    SessionHandler × Option String :=
  if room : s.sessions.length < s.maxSessions.toNat then
    let token := SessionToken.new username generated now
    ({ s with
        sessions := s.sessions ++ [token], bounded := by rw [List.length_append]; exact room },
      some token.token)
  else
    (s.cleanInactiveSessions, none)

/-- `session_handler::find_token` over the stored sessions: the first session with this token
is validated in place. -/
def findTokenIn (token : String) (now refreshed : UInt64) :
    List SessionToken → List SessionToken × Bool
  | [] => ([], false)
  | t :: ts =>
    if token = t.token then
      let (t', valid) := t.validateToken now refreshed
      (t' :: ts, valid)
    else
      let (ts', valid) := findTokenIn token now refreshed ts
      (t :: ts', valid)

theorem findTokenIn_length (token : String) (now refreshed : UInt64) (ts : List SessionToken) :
    (findTokenIn token now refreshed ts).1.length = ts.length := by
  induction ts with
  | nil => rfl
  | cons t ts ih =>
    unfold findTokenIn
    split <;> simp [ih]

/-- `session_handler::validate_session`. -/
def validateSession (s : SessionHandler) (token : String) (now refreshed : UInt64) :
    SessionHandler × Bool :=
  ({ s with
      sessions := (findTokenIn token now refreshed s.sessions).1
      bounded := (findTokenIn_length token now refreshed s.sessions) ▸ s.bounded },
    (findTokenIn token now refreshed s.sessions).2)

/-- `session_handler::get_username_by_token`. -/
def getUsernameByToken (s : SessionHandler) (token : String) (now : UInt64) : Option String :=
  match s.sessions.find? fun t => token = t.token with
  | some t => if t.isActive now then some t.ownerIdentifier else none
  | none => none

/-- The `remove_if` of a pass: the `i`-th session stored is tested with the `i`-th reading. -/
def removeInactive : List SessionToken → List UInt64 → List SessionToken
  | t :: ts, now :: nows =>
    if t.isActive now then t :: removeInactive ts nows else removeInactive ts nows
  | ts, _ => ts

theorem removeInactive_sublist (ts : List SessionToken) (nows : List UInt64) :
    (removeInactive ts nows).Sublist ts := by
  induction ts generalizing nows with
  | nil => cases nows <;> exact List.Sublist.refl _
  | cons t ts ih =>
    cases nows with
    | nil => exact List.Sublist.refl _
    | cons now nows =>
      unfold removeInactive
      split
      · exact (ih nows).cons_cons t
      · exact (ih nows).cons t

/-- One pass of `session_handler::cleanup_task`, from the return of `wait_for` to the next. -/
def cleanupPass (s : SessionHandler) (nows : List UInt64) : SessionHandler :=
  { s with
    sessions := removeInactive s.sessions nows
    panicClean := false
    bounded := Nat.le_trans (removeInactive_sublist s.sessions nows).length_le s.bounded }

/-- What `find_token` does: it leaves the sessions alone, or renews the first one with the
token. -/
theorem findTokenIn_cases (token : String) (now refreshed : UInt64) (ts : List SessionToken) :
    (findTokenIn token now refreshed ts = (ts, false) ∧
      ∀ t, ts.find? (fun t => token = t.token) = some t → t.isActive now = false) ∨
    ∃ before t after, ts = before ++ t :: after ∧ (∀ u ∈ before, u.token ≠ token) ∧
      t.token = token ∧ t.isActive now = true ∧
      findTokenIn token now refreshed ts = (before ++ t.updateLife refreshed :: after, true) := by
  induction ts with
  | nil => exact Or.inl ⟨rfl, by simp⟩
  | cons t ts ih =>
    by_cases same : token = t.token
    · cases active : t.isActive now with
      | false =>
        refine Or.inl ⟨by simp [findTokenIn, same, SessionToken.validateToken, active], ?_⟩
        intro u found
        simp only [List.find?_cons, same, decide_true, Option.some.injEq] at found
        exact found ▸ active
      | true =>
        exact Or.inr ⟨[], t, ts, rfl, by simp, same.symm, active,
          by simp [findTokenIn, same, SessionToken.validateToken, active]⟩
    · rcases ih with ⟨kept, inactive⟩ | ⟨before, u, after, split, first, hit, active, found⟩
      · refine Or.inl ⟨by simp [findTokenIn, same, kept], ?_⟩
        intro u found
        exact inactive u (by simpa [List.find?_cons, same] using found)
      · refine Or.inr ⟨t :: before, u, after, by simp [split], ?_, hit, active,
          by simp [findTokenIn, same, found]⟩
        intro v mem
        rcases List.mem_cons.1 mem with rfl | mem
        · exact Ne.symm same
        · exact first v mem

end SessionHandler

end Lynks
