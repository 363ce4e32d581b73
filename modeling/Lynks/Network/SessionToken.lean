import Mathlib.Init

/-!
# `session_token`

A token with its owner and the clock reading of its last renewal. Readings are milliseconds
in a `uint64_t`; the age of a token is the machine subtraction `now - life_ms`, which wraps
when a reading is earlier than the stored life.
-/

namespace Lynks
set_option autoImplicit false

/-- `session_token`. -/
structure SessionToken where
  token : String
  ownerIdentifier : String
  lifeMs : UInt64
  deriving DecidableEq, Repr

namespace SessionToken

/-- `session_token::max_life_ms`. -/
def maxLifeMs : UInt64 := 300000

/-- The constructor; `now` is the reading `get_now_ms()` gives it. -/
def new (ownerIdentifier token : String) (now : UInt64) : SessionToken :=
  { token, ownerIdentifier, lifeMs := now }

/-- `session_token::is_active` with the reading `now`. -/
def isActive (t : SessionToken) (now : UInt64) : Bool := now - t.lifeMs < maxLifeMs

/-- `session_token::update_life` with the reading `now`. -/
def updateLife (t : SessionToken) (now : UInt64) : SessionToken := { t with lifeMs := now }

/-- `session_token::validate_token`: `is_active` reads `now`, `update_life` reads `refreshed`. -/
def validateToken (t : SessionToken) (now refreshed : UInt64) : SessionToken × Bool :=
  if t.isActive now then (t.updateLife refreshed, true) else (t, false)

/-- The wrapping test is the integer one when the stored life is not after the reading. -/
theorem isActive_iff {t : SessionToken} {now : UInt64} (le : t.lifeMs.toNat ≤ now.toNat) :
    t.isActive now = true ↔ now.toNat < t.lifeMs.toNat + 300000 := by
  have le' : t.lifeMs ≤ now := UInt64.le_iff_toNat_le.2 le
  have age : (now - t.lifeMs).toNat = now.toNat - t.lifeMs.toNat := UInt64.toNat_sub_of_le _ _ le'
  have limit : maxLifeMs.toNat = 300000 := rfl
  simp only [isActive, decide_eq_true_eq, UInt64.lt_iff_toNat_lt, age, limit]
  omega

end SessionToken

end Lynks
