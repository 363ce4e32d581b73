import Lynks.Json
import Lynks.Network.Crypto

/-!
# `user`

A user, with the three ways the program builds one. The constructor from a request body
swallows every exception and keeps the fields assigned so far; the one for database rows
throws when `validate_user` does.
-/

namespace Lynks
set_option autoImplicit false

open Lib

/-- `network::user`. -/
structure User where
  id : Int64
  username : String
  password : String
  deriving DecidableEq, Repr

namespace User

/-- `user()`; `id` is left uninitialised and nothing reads it. -/
def empty : User := { id := 0, username := "", password := "" }

/-- The class `[a-zA-Z\d_]` of `username_validation`. -/
def usernameChar (c : Char) : Bool :=
  ('a' ≤ c && c ≤ 'z') || ('A' ≤ c && c ≤ 'Z') || ('0' ≤ c && c ≤ '9') || c = '_'

/-- `regex_match` against `username_validation`. -/
def usernameMatches (s : String) : Bool :=
  3 ≤ s.length && s.length ≤ 20 && s.toList.all usernameChar

/-- `user::validate_user`. -/
def validateUser (u : User) : Outcome Exception Unit :=
  if u.id < 0 then .throws (.invalidArgument "ID can't be less than 0")
  else if u.username = "" || !usernameMatches u.username then
    .throws (.invalidArgument "Username contains invalid symbols")
  else if u.password = "" || u.password.length ≠ 64 then
    .throws (.invalidArgument "Password does not have correct format")
  else .ok ()

/-- `user::hash_password`. -/
def hashPassword (sha : Sha256) (u : User) : User :=
  { u with password := hash256 sha u.password }

/-- `user::user(std::string json_string)`. An exception ends the assignments and is swallowed,
also the one `validate_user` throws at the end. -/
def ofJson (lib : Nlohmann) (sha : Sha256) (jsonString : String) : User :=
  match lib.parse jsonString with
  | .ok json =>
    match json.readString "username" with
    | .ok username =>
      match json.readString "password" with
      | .ok password => hashPassword sha { id := 0, username, password }
      | _ => { empty with username }
    | _ => empty
  | _ => empty

/-- `user::user(int64_t, std::string, std::string)`. -/
def new (id : Int64) (username password : String) : Outcome Exception User :=
  let user : User := { id, username, password }
  do
    validateUser user
    pure user

/-- What `validate_user` accepts. -/
def Valid (u : User) : Prop :=
  0 ≤ u.id ∧ usernameMatches u.username = true ∧ u.password.length = 64

theorem validateUser_eq_ok {u : User} : validateUser u = .ok () ↔ u.Valid := by
  have named : usernameMatches u.username = true → u.username ≠ "" := by
    intro accepted same
    rw [same] at accepted
    exact absurd accepted (by decide)
  have hashed : u.password.length = 64 → u.password ≠ "" := by
    intro len same
    rw [same] at len
    exact absurd len (by decide)
  unfold validateUser Valid
  split
  · rename_i negative
    simp only [reduceCtorEq, false_iff, not_and]
    exact fun positive => absurd negative (Int64.not_lt.2 positive)
  · rename_i positive
    have positive := Int64.not_lt.1 positive
    split
    · rename_i bad
      simp only [reduceCtorEq, false_iff, not_and]
      intro _ accepted
      simp [named accepted, accepted] at bad
    · rename_i good
      simp only [Bool.or_eq_true, decide_eq_true_eq, Bool.not_eq_true', not_or,
        Bool.not_eq_false] at good
      split
      · rename_i bad
        simp only [reduceCtorEq, false_iff, not_and]
        intro _ _ len
        simp [hashed len, len] at bad
      · rename_i long
        simp only [Bool.or_eq_true, decide_eq_true_eq, not_or, not_not] at long
        exact ⟨fun _ => ⟨positive, good.2, long.2⟩, fun _ => rfl⟩

/-- A user built for a database row is valid, and is that row. -/
theorem new_eq_ok {id : Int64} {username password : String} {u : User} :
    new id username password = .ok u ↔ u = ⟨id, username, password⟩ ∧ u.Valid := by
  simp only [new, Outcome.bind_eq_ok, Outcome.pure_eq, Outcome.ok.injEq]
  constructor
  · rintro ⟨_, valid, rfl⟩
    exact ⟨rfl, validateUser_eq_ok.1 valid⟩
  · rintro ⟨rfl, valid⟩
    exact ⟨(), validateUser_eq_ok.2 valid, rfl⟩

theorem validateUser_ne_undefined (u : User) : validateUser u ≠ .undefined := by
  unfold validateUser
  split
  · simp
  · split
    · simp
    · split <;> simp

/-- The constructor for a row returns or throws. -/
theorem new_ne_undefined (id : Int64) (username password : String) :
    new id username password ≠ .undefined := by
  unfold new
  cases validated : validateUser ⟨id, username, password⟩ with
  | ok => simp [validated]
  | throws => simp [validated]
  | undefined => exact absurd validated (validateUser_ne_undefined _)

end User

end Lynks
