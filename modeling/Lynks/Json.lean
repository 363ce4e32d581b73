import Mathlib.Data.Rat.Floor
import Lynks.Lib.Effects

/-!
# JSON values as the program uses them

The `nlohmann::json` values the program reads and builds, with the accessors it applies:
both forms of `operator[]`, `contains` and `get<T>`. The parser and the printer are not part
of the repository; a `Nlohmann` gives them, and everything below holds for any of them.

A C++ `std::string` is a sequence of bytes. It is modelled by a `String` with one character
for each byte, so that lengths, concatenation and equality are those of the bytes.
-/

namespace Lynks
set_option autoImplicit false

open Lib

/-- The exceptions the program meets; all derive from `std::exception`. -/
inductive Exception where
  /-- `nlohmann::json::parse_error` -/
  | parseError
  /-- `nlohmann::json::type_error` with its id -/
  | typeError (id : Nat)
  /-- `std::out_of_range`, from `http::request::at` -/
  | outOfRange
  /-- `boost::mysql::bad_field_access`, from the accessors of a field -/
  | badFieldAccess
  /-- `std::system_error` of a thread that joins itself -/
  | deadlock
  /-- `std::invalid_argument` with its message -/
  | invalidArgument (what : String)
  deriving DecidableEq, Repr

/-- A `nlohmann::json` value. An object is listed in the order of its keys. -/
inductive Json where
  | null
  | boolean (b : Bool)
  | integer (i : Int64)
  | unsigned (n : UInt64)
  | float (q : ℚ)
  | string (s : String)
  | array (xs : List Json)
  | object (fields : List (String × Json))
  deriving Inhabited

/-- The JSON library: `json::parse` (`none` when it throws), `json::dump` on values whose
strings are UTF-8, and what converting a double whose truncation is outside `[0, 2^64)` to
`uint64_t` gives. C++ makes that undefined behaviour; it is taken to give some value. -/
structure Nlohmann where
  parse? : String → Option Json
  dump : Json → String
  castOverflow : ℚ → UInt64

/-- The bytes of a string are UTF-8. A string that is not makes `json::dump` throw. -/
def isUtf8 (s : String) : Bool :=
  (ByteArray.mk (s.toList.map fun c => c.toNat.toUInt8).toArray).validateUTF8

namespace Nlohmann

variable (lib : Nlohmann)

/-- `nlohmann::json::parse`. -/
def parse (s : String) : Outcome Exception Json :=
  match lib.parse? s with
  | some j => .ok j
  | none => .throws .parseError

/-- `static_cast<uint64_t>` of a double: truncation towards zero where that is in range. -/
def castDouble (q : ℚ) : UInt64 :=
  let t := q.num.tdiv q.den
  if 0 ≤ t ∧ t < 2 ^ 64 then .ofNat t.toNat else lib.castOverflow q

end Nlohmann

namespace Json

/-- The value under a key of an object. -/
def field? (key : String) : Json → Option Json
  | object fields => fields.lookup key
  | _ => none

/-- `json.contains(key)`. -/
def contains (key : String) (j : Json) : Bool := (j.field? key).isSome

/-- `json.is_object()`. -/
def isObject : Json → Bool
  | object _ => true
  | _ => false

/-- `json.is_array()`. -/
def isArray : Json → Bool
  | array _ => true
  | _ => false

/-- The elements a range-based `for` over an array visits. -/
def elements : Json → List Json
  | array xs => xs
  | _ => []

/-- `json[key]` on a non-const value. A missing key is inserted with the value null, and null
becomes an object; only the value read is returned, since every `get` the program applies to
it throws on null. -/
def subscript (key : String) : Json → Outcome Exception Json
  | null => .ok null
  | object fields => .ok ((fields.lookup key).getD null)
  | _ => .throws (.typeError 305)

/-- `json[key]` on a const value: a missing key is a violated precondition. -/
def subscriptConst (key : String) : Json → Outcome Exception Json
  | object fields =>
    match fields.lookup key with
    | some v => .ok v
    | none => .undefined
  | _ => .throws (.typeError 305)

/-- `get<std::string>()`. -/
def getString : Json → Outcome Exception String
  | string s => .ok s
  | _ => .throws (.typeError 302)

/-- `get<bool>()`. -/
def getBool : Json → Outcome Exception Bool
  | boolean b => .ok b
  | _ => .throws (.typeError 302)

/-- `get<uint64_t>()`: any number is `static_cast`, anything else throws. -/
def getUInt64 (lib : Nlohmann) : Json → Outcome Exception UInt64
  | unsigned n => .ok n
  | integer i => .ok i.toUInt64
  | float q => .ok (lib.castDouble q)
  | _ => .throws (.typeError 302)

/-- `json[key].get<std::string>()`. -/
def readString (key : String) (j : Json) : Outcome Exception String :=
  j.subscript key >>= getString

/-- The string under a key of an object. -/
def stringField? (key : String) (j : Json) : Option String :=
  match j.field? key with
  | some (string s) => some s
  | _ => none

/-- A number, of whichever of the three kinds. -/
def isNumber : Json → Bool
  | integer _ | unsigned _ | float _ => true
  | _ => false

/-- The value of a number. -/
def number? : Json → Option ℚ
  | integer i => some i.toInt
  | unsigned n => some n.toNat
  | float q => some q
  | _ => none

/-! ## What the accessors accept -/

theorem readString_eq_ok {key s : String} {j : Json} :
    j.readString key = .ok s ↔ j.stringField? key = some s := by
  cases j with
  | object fields =>
    cases found : fields.lookup key with
    | none => simp [readString, subscript, stringField?, field?, found, getString]
    | some v => cases v <;> simp [readString, subscript, stringField?, field?, found, getString]
  | _ => simp [readString, subscript, stringField?, field?, getString]

/-- Reading a string never runs into undefined behaviour. -/
theorem readString_cases (key : String) (j : Json) :
    (∃ s, j.readString key = .ok s ∧ j.stringField? key = some s) ∨
      ∃ e, j.readString key = .throws e ∧ j.stringField? key = none := by
  cases found : j.stringField? key with
  | some s => exact Or.inl ⟨s, readString_eq_ok.2 found, rfl⟩
  | none =>
    refine Or.inr ?_
    cases read : j.readString key with
    | ok s => rw [readString_eq_ok.1 read] at found; cases found
    | throws e => exact ⟨e, rfl, rfl⟩
    | undefined =>
      cases j with
      | object fields =>
        cases v : fields.lookup key with
        | none => simp [readString, subscript, v, getString] at read
        | some v' => cases v' <;> simp [readString, subscript, v, getString] at read
      | _ => simp [readString, subscript, getString] at read

/-- A string found under a key is a field of an object. -/
theorem mem_of_stringField {key s : String} {j : Json} (found : j.stringField? key = some s) :
    ∃ fields, j = object fields ∧ (key, string s) ∈ fields := by
  cases j with
  | object fields =>
    unfold stringField? at found
    split at found
    · rename_i s' value
      obtain rfl := Option.some.inj found
      obtain ⟨before, after, split, -⟩ := List.lookup_eq_some_iff.1 value
      exact ⟨fields, rfl, split ▸ List.mem_append_right _ List.mem_cons_self⟩
    · cases found
  | _ => cases found

theorem readString_ne_undefined (key : String) (j : Json) : j.readString key ≠ .undefined := by
  rcases j.readString_cases key with ⟨s, read, -⟩ | ⟨e, read, -⟩ <;> simp [read]

/-- The non-const `operator[]` finds the value of the key, makes up a null, or throws. -/
theorem subscript_cases (key : String) (j : Json) :
    (∃ v, j.subscript key = .ok v ∧ j.field? key = some v) ∨
      (j.subscript key = .ok null ∧ j.field? key = none) ∨
      ∃ e, j.subscript key = .throws e ∧ j.field? key = none := by
  cases j with
  | object fields =>
    cases found : fields.lookup key with
    | none => exact Or.inr (Or.inl (by simp [subscript, field?, found]))
    | some v => exact Or.inl ⟨v, by simp [subscript, field?, found]⟩
  | null => exact Or.inr (Or.inl ⟨rfl, rfl⟩)
  | _ => exact Or.inr (Or.inr ⟨.typeError 305, rfl, rfl⟩)

/-- The non-const `operator[]` returns or throws. -/
theorem subscript_ne_undefined (key : String) (j : Json) : j.subscript key ≠ .undefined := by
  cases j <;> simp [subscript]

theorem getUInt64_cases (lib : Nlohmann) (j : Json) :
    (j.isNumber = true ∧ ∃ n, j.getUInt64 lib = .ok n) ∨
      (j.isNumber = false ∧ j.getUInt64 lib = .throws (.typeError 302)) := by
  cases j <;> simp [isNumber, getUInt64]

theorem getUInt64_ne_undefined (lib : Nlohmann) (j : Json) : j.getUInt64 lib ≠ .undefined := by
  rcases j.getUInt64_cases lib with ⟨-, n, read⟩ | ⟨-, read⟩ <;> simp [read]

end Json

end Lynks
