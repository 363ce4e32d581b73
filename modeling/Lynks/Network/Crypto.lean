import Mathlib.Data.List.Basic

/-!
# `crypto::hash256`

SHA-256 is a parameter: any function from byte strings to 32 bytes.
-/

namespace Lynks
set_option autoImplicit false

/-- The hash function of the SSL library. -/
structure Sha256 where
  digest : String → Vector UInt8 32

/-- One digit of `std::hex`. -/
def hexDigit (n : Nat) : Char :=
  if n < 10 then Char.ofNat ('0'.toNat + n) else Char.ofNat ('a'.toNat + (n - 10))

/-- A byte printed with `std::setw(2)` and `std::setfill('0')`. -/
def hexByte (b : UInt8) : List Char := [hexDigit (b.toNat / 16), hexDigit (b.toNat % 16)]

/-- `crypto::hash256`. -/
def hash256 (sha : Sha256) (str : String) : String :=
  String.ofList ((sha.digest str).toList.flatMap hexByte)

/-- Every hash has 64 characters, as `validate_user` asks of a password. -/
theorem hash256_length (sha : Sha256) (str : String) : (hash256 sha str).length = 64 := by
  have two : ∀ bs : List UInt8, (bs.flatMap hexByte).length = 2 * bs.length := by
    intro bs
    induction bs with
    | nil => rfl
    | cons b bs ih =>
      rw [List.flatMap_cons, List.length_append, ih, List.length_cons]
      have byte : (hexByte b).length = 2 := rfl
      omega
  rw [hash256, String.length_ofList, two, Vector.length_toList]

end Lynks
