import Lynks.Json
import Lynks.Network.Crypto

/-!
# Dump and parse

A printer and a reader for JSON in its compact form, with an executable definition of each. What
is printed is read back (`parse_dump`), so a library of this kind meets what the program relies on
(`Nlohmann.Standard`). Floating-point numbers are left out: the program prints none.
-/

namespace Lynks
set_option autoImplicit false

namespace JsonDump

/-! ## The printer -/

/-- The letter of an escape of two characters. -/
def escapeLetter? (c : Char) : Option Char :=
  if c = '"' then some '"' else if c = '\\' then some '\\'
  else if c = Char.ofNat 8 then some 'b' else if c = '\t' then some 't'
  else if c = '\n' then some 'n' else if c = Char.ofNat 12 then some 'f'
  else if c = '\r' then some 'r' else none

/-- A character as `dump` prints it in a string. -/
def escape (c : Char) : List Char :=
  match escapeLetter? c with
  | some e => ['\\', e]
  | none =>
    if c.toNat < 32 then ['\\', 'u', '0', '0', hexDigit (c.toNat / 16), hexDigit (c.toNat % 16)]
    else [c]

/-- A string in quotes. -/
def quoted (s : String) : List Char := '"' :: s.toList.flatMap escape ++ ['"']

mutual

/-- The text of a value, without blanks. -/
def text : Json → List Char
  | .null => ['n', 'u', 'l', 'l']
  | .boolean true => ['t', 'r', 'u', 'e']
  | .boolean false => ['f', 'a', 'l', 's', 'e']
  | .integer i => '-' :: Nat.toDigits 10 i.toInt.natAbs
  | .unsigned n => Nat.toDigits 10 n.toNat
  | .float _ => []
  | .string s => quoted s
  | .array [] => ['[', ']']
  | .array (x :: xs) => '[' :: (text x ++ moreElements xs)
  | .object [] => ['\x7b', '\x7d']
  | .object ((key, x) :: fields) => '\x7b' :: (quoted key ++ ':' :: (text x ++ moreFields fields))

/-- The elements after the first, and the bracket. -/
def moreElements : List Json → List Char
  | [] => [']']
  | x :: xs => ',' :: (text x ++ moreElements xs)

/-- The fields after the first, and the brace. -/
def moreFields : List (String × Json) → List Char
  | [] => ['\x7d']
  | (key, x) :: fields => ',' :: (quoted key ++ ':' :: (text x ++ moreFields fields))

end

/-- `dump`. -/
def dump (j : Json) : String := String.ofList (text j)

/-! ## The reader -/

/-- The value of a hexadecimal digit. -/
def hexValue? (c : Char) : Option Nat := (List.range 16).find? fun n => hexDigit n = c

/-- The character an escape of two characters stands for. -/
def unescape? (e : Char) : Option Char :=
  ['"', '\\', Char.ofNat 8, '\t', '\n', Char.ofNat 12, '\r'].find? fun c =>
    escapeLetter? c = some e

/-- The characters of a string, up to its closing quote. -/
def readChars : List Char → Option (List Char × List Char)
  | [] => none
  | '"' :: cs => some ([], cs)
  | '\\' :: 'u' :: '0' :: '0' :: high :: low :: cs =>
    match hexValue? high, hexValue? low with
    | some h, some l => (readChars cs).map fun (s, cs) => (Char.ofNat (16 * h + l) :: s, cs)
    | _, _ => none
  | '\\' :: e :: cs =>
    match unescape? e with
    | some c => (readChars cs).map fun (s, cs) => (c :: s, cs)
    | none => none
  | c :: cs => if c.toNat < 32 then none else (readChars cs).map fun (s, cs) => (c :: s, cs)

/-- A string after its opening quote. -/
def readString (cs : List Char) : Option (String × List Char) :=
  match readChars cs with
  | some (s, cs) => if isUtf8 (String.ofList s) then some (String.ofList s, cs) else none
  | none => none

/-- A number without sign, printed without leading zeros. -/
def readNat (cs : List Char) : Option (Nat × List Char) :=
  let digits := cs.takeWhile Char.isDigit
  let n := Nat.ofDigitChars 10 digits 0
  if Nat.toDigits 10 n = digits then some (n, cs.dropWhile Char.isDigit) else none

def readNumber (cs : List Char) : Option (Json × List Char) :=
  match cs with
  | '-' :: cs =>
    match readNat cs with
    | some (n, cs) => if n ≤ 2 ^ 63 then some (.integer (Int64.ofInt (-n)), cs) else none
    | none => none
  | cs =>
    match readNat cs with
    | some (n, cs) => if n < 2 ^ 64 then some (.unsigned (UInt64.ofNat n), cs) else none
    | none => none

/-- The key of a field, and the colon. -/
def readKey : List Char → Option (String × List Char)
  | '"' :: cs =>
    match readString cs with
    | some (key, ':' :: cs) => some (key, cs)
    | _ => none
  | _ => none

mutual

/-- A value in at most `n` nested steps. -/
def readValue : Nat → List Char → Option (Json × List Char)
  | 0, _ => none
  | n + 1, cs =>
    match cs with
    | 'n' :: 'u' :: 'l' :: 'l' :: cs => some (.null, cs)
    | 't' :: 'r' :: 'u' :: 'e' :: cs => some (.boolean true, cs)
    | 'f' :: 'a' :: 'l' :: 's' :: 'e' :: cs => some (.boolean false, cs)
    | '"' :: cs => (readString cs).map fun (s, cs) => (.string s, cs)
    | '[' :: ']' :: cs => some (.array [], cs)
    | '[' :: cs => do
      let (x, cs) ← readValue n cs
      let (xs, cs) ← readElements n cs
      some (.array (x :: xs), cs)
    | '\x7b' :: '\x7d' :: cs => some (.object [], cs)
    | '\x7b' :: cs => do
      let (key, cs) ← readKey cs
      let (x, cs) ← readValue n cs
      let (fields, cs) ← readFields n cs
      if (key :: fields.map Prod.fst).Pairwise (· < ·) then some (.object ((key, x) :: fields), cs)
      else none
    | cs => readNumber cs

/-- The elements of an array after its first. -/
def readElements : Nat → List Char → Option (List Json × List Char)
  | 0, _ => none
  | n + 1, cs =>
    match cs with
    | ']' :: cs => some ([], cs)
    | ',' :: cs => do
      let (x, cs) ← readValue n cs
      let (xs, cs) ← readElements n cs
      some (x :: xs, cs)
    | _ => none

/-- The fields of an object after its first. -/
def readFields : Nat → List Char → Option (List (String × Json) × List Char)
  | 0, _ => none
  | n + 1, cs =>
    match cs with
    | '\x7d' :: cs => some ([], cs)
    | ',' :: cs => do
      let (key, cs) ← readKey cs
      let (x, cs) ← readValue n cs
      let (fields, cs) ← readFields n cs
      some ((key, x) :: fields, cs)
    | _ => none

end

/-- A whole text that is one value. -/
def parse? (s : String) : Option Json :=
  match readValue s.length s.toList with
  | some (j, []) => some j
  | _ => none

/-! ## What is printed is read back -/

theorem hexValue_hexDigit : ∀ n < 16, hexValue? (hexDigit n) = some n := by decide

theorem readChars_letter {c e : Char} (escaped : escapeLetter? c = some e) (cs : List Char) :
    readChars ('\\' :: e :: cs) = (readChars cs).map fun p => (c :: p.1, p.2) := by
  unfold escapeLetter? at escaped
  split_ifs at escaped with quote backslash backspace tab newline formFeed carriage
  all_goals obtain rfl := Option.some.inj escaped
  · rw [quote]; rfl
  · rw [backslash]; rfl
  · rw [backspace]; rfl
  · rw [tab]; rfl
  · rw [newline]; rfl
  · rw [formFeed]; rfl
  · rw [carriage]; rfl

/-- A character is read back from its escape. -/
theorem readChars_escape (c : Char) (cs : List Char) :
    readChars (escape c ++ cs) = (readChars cs).map fun p => (c :: p.1, p.2) := by
  unfold escape
  cases escaped : escapeLetter? c with
  | some e => exact readChars_letter escaped cs
  | none =>
    by_cases control : c.toNat < 32
    · have high := hexValue_hexDigit (c.toNat / 16) (by omega)
      have low := hexValue_hexDigit (c.toNat % 16) (by omega)
      have code : Char.ofNat (16 * (c.toNat / 16) + c.toNat % 16) = c := by
        rw [Nat.div_add_mod, Char.ofNat_toNat]
      simp only [control, if_true, List.cons_append, List.nil_append, readChars, high, low, code]
    · have quote : c ≠ '"' := by rintro rfl; cases escaped
      have backslash : c ≠ '\\' := by rintro rfl; cases escaped
      have plain : readChars (c :: cs) =
          if c.toNat < 32 then none else (readChars cs).map fun p => (c :: p.1, p.2) := by
        rw [readChars]
        · exact quote
        · exact fun _ _ _ same _ => backslash same
        · exact fun _ _ same _ => backslash same
      simp only [control, if_false]
      exact plain.trans (if_neg control)

theorem readChars_escapes (s rest : List Char) :
    readChars (s.flatMap escape ++ '"' :: rest) = some (s, rest) := by
  induction s with
  | nil => rfl
  | cons c s ih =>
    rw [List.flatMap_cons, List.append_assoc, readChars_escape, ih]
    rfl

theorem readString_escapes {s : String} (utf8 : isUtf8 s = true) (rest : List Char) :
    readString (s.toList.flatMap escape ++ '"' :: rest) = some (s, rest) := by
  rw [readString, readChars_escapes]
  simp only [String.ofList_toList, utf8, if_true]

/-- What follows a number is no digit. -/
def Ends (rest : List Char) : Prop := ∀ c, rest.head? = some c → c.isDigit = false

theorem readNat_toDigits (n : Nat) {rest : List Char} (ends : Ends rest) :
    readNat (Nat.toDigits 10 n ++ rest) = some (n, rest) := by
  have digits : ∀ c ∈ Nat.toDigits 10 n, c.isDigit = true := fun c mem =>
    Nat.isDigit_of_mem_toDigits (by decide) (by decide) mem
  have stop : rest.takeWhile Char.isDigit = [] ∧ rest.dropWhile Char.isDigit = rest := by
    cases rest with
    | nil => exact ⟨rfl, rfl⟩
    | cons c cs =>
      have no := ends c rfl
      simp [no]
  rw [readNat, List.takeWhile_append_of_pos digits, List.dropWhile_append_of_pos digits, stop.1,
    stop.2, List.append_nil, Nat.ofDigitChars_ten_toDigits]
  exact if_pos rfl

theorem ends_cons {c : Char} {cs : List Char} (other : c.isDigit = false) : Ends (c :: cs) := by
  intro d same
  rw [← Option.some.inj same]
  exact other

/-- A digit or a sign starts a number. -/
theorem readValue_number {c : Char} (number : c.isDigit = true ∨ c = '-') (n : Nat)
    (cs : List Char) : readValue (n + 1) (c :: cs) = readNumber (c :: cs) := by
  have other {d : Char} {ds : List Char} (no : d.isDigit = false) (sign : d ≠ '-') :
      c :: cs ≠ d :: ds := by
    intro same
    obtain ⟨rfl, -⟩ := List.cons_eq_cons.1 same
    rcases number with digit | minus
    · rw [no] at digit
      cases digit
    · exact sign minus
  rw [readValue]
  all_goals exact fun _ => other (by decide) (by decide)

theorem readNumber_nat {c : Char} (digit : c.isDigit = true) (cs : List Char) :
    readNumber (c :: cs) =
      match readNat (c :: cs) with
      | some (n, cs) => if n < 2 ^ 64 then some (.unsigned (UInt64.ofNat n), cs) else none
      | none => none := by
  rw [readNumber]
  intro _ same
  obtain ⟨rfl, -⟩ := List.cons_eq_cons.1 same
  cases digit

/-- A number is read back as what it was. -/
theorem readValue_unsigned (u : UInt64) (n : Nat) {rest : List Char} (ends : Ends rest) :
    readValue (n + 1) (Nat.toDigits 10 u.toNat ++ rest) = some (.unsigned u, rest) := by
  cases digits : Nat.toDigits 10 u.toNat with
  | nil => exact absurd digits Nat.toDigits_ne_nil
  | cons c cs =>
    have digit : c.isDigit = true :=
      Nat.isDigit_of_mem_toDigits (by decide) (by decide) (digits ▸ List.mem_cons_self)
    have read : readNat (c :: (cs ++ rest)) = some (u.toNat, rest) := by
      rw [← List.cons_append, ← digits]
      exact readNat_toDigits _ ends
    rw [List.cons_append, readValue_number (Or.inl digit), readNumber_nat digit, read]
    simp [u.toNat_lt]

theorem readValue_integer {i : Int64} (negative : i.toInt < 0) (n : Nat) {rest : List Char}
    (ends : Ends rest) :
    readValue (n + 1) ('-' :: Nat.toDigits 10 i.toInt.natAbs ++ rest) =
      some (.integer i, rest) := by
  have low : -2 ^ 63 ≤ i.toInt := i.le_toInt
  have value : -(i.toInt.natAbs : Int) = i.toInt := by omega
  rw [List.cons_append, readValue_number (Or.inr rfl), readNumber, readNat_toDigits _ ends]
  simp only [value, Int64.ofInt_toInt]
  rw [if_pos (by omega)]

mutual

/-- A value that `parse` can give, without floating-point numbers: strings are UTF-8, an object
has its keys in order, and a signed number is negative. -/
def printable : Json → Bool
  | .null | .boolean _ | .unsigned _ => true
  | .integer i => i.toInt < 0
  | .float _ => false
  | .string s => isUtf8 s
  | .array xs => printableElements xs
  | .object fields =>
    (fields.map Prod.fst).Pairwise (· < ·) && printableFields fields

def printableElements : List Json → Bool
  | [] => true
  | x :: xs => printable x && printableElements xs

def printableFields : List (String × Json) → Bool
  | [] => true
  | (key, x) :: fields => isUtf8 key && printable x && printableFields fields

end

theorem printable_object {fields : List (String × Json)}
    (sorted : (fields.map Prod.fst).Pairwise (· < ·)) (fine : printableFields fields = true) :
    printable (.object fields) = true := by
  rw [printable, decide_eq_true sorted, fine]
  rfl

/-- No value starts like the end of an array. -/
theorem text_cons {j : Json} (fine : printable j = true) :
    ∃ c cs, text j = c :: cs ∧ c ≠ ']' := by
  have digit (n : Nat) : ∃ c cs, Nat.toDigits 10 n = c :: cs ∧ c ≠ ']' := by
    cases digits : Nat.toDigits 10 n with
    | nil => exact absurd digits Nat.toDigits_ne_nil
    | cons c cs =>
      have isDigit : c.isDigit = true :=
        Nat.isDigit_of_mem_toDigits (by decide) (by decide) (digits ▸ List.mem_cons_self)
      refine ⟨c, cs, rfl, ?_⟩
      rintro rfl
      cases isDigit
  cases j with
  | null => exact ⟨'n', _, by rw [text], by decide⟩
  | boolean b => cases b <;> exact ⟨_, _, by rw [text], by decide⟩
  | integer i => exact ⟨'-', _, by rw [text], by decide⟩
  | unsigned u =>
    rw [text]
    exact digit _
  | float q => cases fine
  | string s => exact ⟨'"', _, by rw [text, quoted]; rfl, by decide⟩
  | array xs => cases xs <;> exact ⟨'[', _, by rw [text], by decide⟩
  | object fields => cases fields <;> exact ⟨'\x7b', _, by rw [text], by decide⟩

theorem readKey_quoted {key : String} (utf8 : isUtf8 key = true) (rest : List Char) :
    readKey (quoted key ++ ':' :: rest) = some (key, rest) := by
  have text : quoted key ++ ':' :: rest =
      '"' :: (key.toList.flatMap escape ++ '"' :: ':' :: rest) := by simp [quoted]
  rw [text, readKey, readString_escapes utf8]
  rfl

theorem ends_more (xs : List Json) (rest : List Char) : Ends (moreElements xs ++ rest) := by
  cases xs <;> exact ends_cons (by decide)

theorem ends_fields (fields : List (String × Json)) (rest : List Char) :
    Ends (moreFields fields ++ rest) := by
  cases fields with
  | nil => exact ends_cons (by decide)
  | cons field fields => exact ends_cons (by decide)

theorem succ_of_length {c : Char} {cs : List Char} {n : Nat} (enough : (c :: cs).length ≤ n) :
    ∃ k, n = k + 1 ∧ cs.length ≤ k := by
  rw [List.length_cons] at enough
  exact ⟨n - 1, by omega, by omega⟩

/-- The length of what is read next, and of what is read after it. -/
theorem lengths_of_append {cs ds : List Char} {n : Nat} (enough : (cs ++ ds).length ≤ n) :
    cs.length ≤ n ∧ ds.length ≤ n := by
  rw [List.length_append] at enough
  exact ⟨by omega, by omega⟩

mutual

/-- **What is printed is read back**, whatever follows it but a digit. -/
theorem readValue_text : ∀ (j : Json), printable j = true → ∀ (n : Nat) (rest : List Char),
    (text j).length ≤ n → Ends rest → readValue n (text j ++ rest) = some (j, rest)
  | .null, _, n, rest, enough, _ => by
    rw [text] at enough ⊢
    obtain ⟨n, rfl, -⟩ := succ_of_length enough
    rfl
  | .boolean true, _, n, rest, enough, _ => by
    rw [text] at enough ⊢
    obtain ⟨n, rfl, -⟩ := succ_of_length enough
    rfl
  | .boolean false, _, n, rest, enough, _ => by
    rw [text] at enough ⊢
    obtain ⟨n, rfl, -⟩ := succ_of_length enough
    rfl
  | .integer i, fine, n, rest, enough, ends => by
    rw [text] at enough ⊢
    obtain ⟨n, rfl, -⟩ := succ_of_length enough
    exact readValue_integer (of_decide_eq_true fine) n ends
  | .unsigned u, _, n, rest, enough, ends => by
    rw [text] at enough ⊢
    have some : 0 < (Nat.toDigits 10 u.toNat).length := Nat.length_toDigits_pos
    obtain ⟨n, rfl⟩ : ∃ k, n = k + 1 := ⟨n - 1, by omega⟩
    exact readValue_unsigned u n ends
  | .float q, fine, _, _, _, _ => by cases fine
  | .string s, fine, n, rest, enough, _ => by
    rw [text, quoted] at enough ⊢
    obtain ⟨n, rfl, -⟩ := succ_of_length enough
    have read := readString_escapes fine rest
    simp only [List.cons_append, List.append_assoc, List.nil_append]
    rw [readValue, read]
    rfl
  | .array [], _, n, rest, enough, _ => by
    rw [text] at enough ⊢
    obtain ⟨n, rfl, -⟩ := succ_of_length enough
    rfl
  | .array (x :: xs), fine, n, rest, enough, _ => by
    rw [printable, printableElements, Bool.and_eq_true] at fine
    rw [text] at enough ⊢
    obtain ⟨n, rfl, inner⟩ := succ_of_length enough
    obtain ⟨here, after⟩ := lengths_of_append inner
    have first := readValue_text x fine.1 n (moreElements xs ++ rest) here (ends_more xs rest)
    have others := readElements_text xs fine.2 n rest after
    obtain ⟨c, cs, head, other⟩ := text_cons fine.1
    have bracket : ∀ ds, text x ++ (moreElements xs ++ rest) ≠ ']' :: ds := by
      intro ds same
      rw [head] at same
      exact other (List.cons_eq_cons.1 same).1
    rw [List.cons_append, List.append_assoc, readValue, first]
    · simp only [Option.bind_eq_bind, Option.bind_some, others]
    · exact bracket
  | .object [], _, n, rest, enough, _ => by
    rw [text] at enough ⊢
    obtain ⟨n, rfl, -⟩ := succ_of_length enough
    rfl
  | .object ((key, x) :: fields), fine, n, rest, enough, _ => by
    rw [printable, printableFields, Bool.and_eq_true, Bool.and_eq_true, Bool.and_eq_true,
      decide_eq_true_eq] at fine
    rw [text] at enough ⊢
    obtain ⟨n, rfl, inner⟩ := succ_of_length enough
    have value : (text x ++ moreFields fields).length + 1 ≤ n := (lengths_of_append inner).2
    obtain ⟨here, after⟩ := lengths_of_append (Nat.le_of_succ_le value)
    have named := readKey_quoted fine.2.1.1 (text x ++ (moreFields fields ++ rest))
    have first := readValue_text x fine.2.1.2 n (moreFields fields ++ rest) here
      (ends_fields fields rest)
    have others := readFields_text fields fine.2.2 n rest after
    have brace : ∀ ds, quoted key ++ ':' :: (text x ++ (moreFields fields ++ rest)) ≠
        '\x7d' :: ds := by
      intro ds same
      cases same
    simp only [List.cons_append, List.append_assoc]
    rw [readValue, named]
    · simp only [Option.bind_eq_bind, Option.bind_some, first, others]
      exact if_pos fine.1
    · exact brace

theorem readElements_text : ∀ (xs : List Json), printableElements xs = true →
    ∀ (n : Nat) (rest : List Char), (moreElements xs).length ≤ n →
      readElements n (moreElements xs ++ rest) = some (xs, rest)
  | [], _, n, rest, enough => by
    rw [moreElements] at enough ⊢
    obtain ⟨n, rfl, -⟩ := succ_of_length enough
    rfl
  | x :: xs, fine, n, rest, enough => by
    rw [printableElements, Bool.and_eq_true] at fine
    rw [moreElements] at enough ⊢
    obtain ⟨n, rfl, inner⟩ := succ_of_length enough
    obtain ⟨here, after⟩ := lengths_of_append inner
    have first := readValue_text x fine.1 n (moreElements xs ++ rest) here (ends_more xs rest)
    have others := readElements_text xs fine.2 n rest after
    rw [List.cons_append, List.append_assoc, readElements, first]
    simp only [Option.bind_eq_bind, Option.bind_some, others]

theorem readFields_text : ∀ (fields : List (String × Json)), printableFields fields = true →
    ∀ (n : Nat) (rest : List Char), (moreFields fields).length ≤ n →
      readFields n (moreFields fields ++ rest) = some (fields, rest)
  | [], _, n, rest, enough => by
    rw [moreFields] at enough ⊢
    obtain ⟨n, rfl, -⟩ := succ_of_length enough
    rfl
  | (key, x) :: fields, fine, n, rest, enough => by
    rw [printableFields, Bool.and_eq_true, Bool.and_eq_true] at fine
    rw [moreFields] at enough ⊢
    obtain ⟨n, rfl, inner⟩ := succ_of_length enough
    have value : (text x ++ moreFields fields).length + 1 ≤ n := (lengths_of_append inner).2
    obtain ⟨here, after⟩ := lengths_of_append (Nat.le_of_succ_le value)
    have named := readKey_quoted fine.1.1 (text x ++ (moreFields fields ++ rest))
    have first := readValue_text x fine.1.2 n (moreFields fields ++ rest) here
      (ends_fields fields rest)
    have others := readFields_text fields fine.2 n rest after
    simp only [List.cons_append, List.append_assoc]
    rw [readFields, named]
    simp only [Option.bind_eq_bind, Option.bind_some, first, others]

end

theorem parse_dump {j : Json} (fine : printable j = true) : parse? (dump j) = some j := by
  have read := readValue_text j fine (dump j).length [] (by simp [dump])
    fun c none => by cases none
  rw [List.append_nil] at read
  rw [parse?, dump, String.toList_ofList, ← dump, read]

/-! ## Strings that have been read are UTF-8 -/

theorem readString_utf8 {cs rest : List Char} {s : String}
    (read : readString cs = some (s, rest)) : isUtf8 s = true := by
  unfold readString at read
  split at read
  · obtain ⟨utf8, same⟩ := Option.ite_none_right_eq_some.1 read
    obtain ⟨rfl, -⟩ := Prod.mk.inj (Option.some.inj same)
    exact utf8
  · cases read

theorem readNumber_cases {cs rest : List Char} {j : Json}
    (read : readNumber cs = some (j, rest)) : (∃ i, j = .integer i) ∨ ∃ u, j = .unsigned u := by
  unfold readNumber at read
  split at read
  · split at read
    · obtain ⟨-, same⟩ := Option.ite_none_right_eq_some.1 read
      obtain ⟨rfl, -⟩ := Prod.mk.inj (Option.some.inj same)
      exact Or.inl ⟨_, rfl⟩
    · cases read
  · split at read
    · obtain ⟨-, same⟩ := Option.ite_none_right_eq_some.1 read
      obtain ⟨rfl, -⟩ := Prod.mk.inj (Option.some.inj same)
      exact Or.inr ⟨_, rfl⟩
    · cases read

/-- What has been read is a string, an object that has fields, or neither. -/
theorem readValue_cases {n : Nat} {cs rest : List Char} {j : Json}
    (read : readValue n cs = some (j, rest)) :
    (∃ s cs, readString cs = some (s, rest) ∧ j = .string s) ∨
    (∃ key x fields k before after, readValue k before = some (x, after) ∧
      readFields k after = some (fields, rest) ∧ j = .object ((key, x) :: fields)) ∨
    ((∀ s, j ≠ .string s) ∧ ∀ fields, j = .object fields → fields = []) := by
  have neither {v : Json} {cs : List Char} (same : some (v, cs) = some (j, rest))
      (noString : ∀ s, v ≠ .string s) (noField : ∀ fields, v = .object fields → fields = []) :
      (∀ s, j ≠ .string s) ∧ ∀ fields, j = .object fields → fields = [] := by
    obtain ⟨rfl, -⟩ := Prod.mk.inj (Option.some.inj same)
    exact ⟨noString, noField⟩
  cases n with
  | zero => cases read
  | succ n =>
    unfold readValue at read
    split at read
    · exact Or.inr (Or.inr (neither read (by simp) (by simp)))
    · exact Or.inr (Or.inr (neither read (by simp) (by simp)))
    · exact Or.inr (Or.inr (neither read (by simp) (by simp)))
    · obtain ⟨⟨s, cs'⟩, string, same⟩ := Option.map_eq_some_iff.1 read
      obtain ⟨rfl, rfl⟩ := Prod.mk.inj same
      exact Or.inl ⟨s, _, string, rfl⟩
    · exact Or.inr (Or.inr (neither read (by simp) (by simp)))
    · obtain ⟨first, -, built⟩ := Option.bind_eq_some_iff.1 read
      obtain ⟨others, -, same⟩ := Option.bind_eq_some_iff.1 built
      exact Or.inr (Or.inr (neither same (by simp) (by simp)))
    · exact Or.inr (Or.inr (neither read (by simp) (by simp)))
    · obtain ⟨⟨key, before⟩, -, named⟩ := Option.bind_eq_some_iff.1 read
      obtain ⟨⟨x, after⟩, first, built⟩ := Option.bind_eq_some_iff.1 named
      obtain ⟨⟨fields, cs'⟩, more, sorted⟩ := Option.bind_eq_some_iff.1 built
      obtain ⟨rfl, rfl⟩ := Prod.mk.inj (Option.some.inj (Option.ite_none_right_eq_some.1 sorted).2)
      exact Or.inr (Or.inl ⟨key, x, fields, n, before, after, first, more, rfl⟩)
    · rcases readNumber_cases read with ⟨i, rfl⟩ | ⟨u, rfl⟩
      · exact Or.inr (Or.inr (by simp))
      · exact Or.inr (Or.inr (by simp))

theorem readValue_utf8 {n : Nat} {cs rest : List Char} {s : String}
    (read : readValue n cs = some (.string s, rest)) : isUtf8 s = true := by
  rcases readValue_cases read with
    ⟨s', cs', string, same⟩ | ⟨key, x, fields, k, before, after, -, -, same⟩ | ⟨noString, -⟩
  · rw [Json.string.inj same]
    exact readString_utf8 string
  · cases same
  · exact absurd rfl (noString s)

theorem readFields_utf8 {n : Nat} {cs rest : List Char} {fields : List (String × Json)}
    (read : readFields n cs = some (fields, rest)) {key s : String}
    (mem : (key, .string s) ∈ fields) : isUtf8 s = true := by
  induction n generalizing cs fields with
  | zero => cases read
  | succ n ih =>
    unfold readFields at read
    split at read
    · obtain ⟨rfl, -⟩ := Prod.mk.inj (Option.some.inj read)
      cases mem
    · obtain ⟨⟨key', cs'⟩, -, named⟩ := Option.bind_eq_some_iff.1 read
      obtain ⟨⟨x, after⟩, first, built⟩ := Option.bind_eq_some_iff.1 named
      obtain ⟨⟨others, rest'⟩, more, same⟩ := Option.bind_eq_some_iff.1 built
      obtain ⟨rfl, rfl⟩ := Prod.mk.inj (Option.some.inj same)
      rcases List.mem_cons.1 mem with here | later
      · obtain ⟨-, rfl⟩ := Prod.mk.inj here
        exact readValue_utf8 first
      · exact ih more later
    · cases read

theorem readValue_fields_utf8 {n : Nat} {cs rest : List Char} {fields : List (String × Json)}
    (read : readValue n cs = some (.object fields, rest)) {key s : String}
    (mem : (key, .string s) ∈ fields) : isUtf8 s = true := by
  rcases readValue_cases read with
    ⟨s', cs', -, same⟩ | ⟨key', x, others, k, before, after, first, more, same⟩ | ⟨-, noField⟩
  · cases same
  · rw [Json.object.inj same] at mem
    rcases List.mem_cons.1 mem with here | later
    · obtain ⟨-, rfl⟩ := Prod.mk.inj here
      exact readValue_utf8 first
    · exact readFields_utf8 more later
  · rw [noField fields rfl] at mem
    cases mem

/-- The strings of an object that has been read. -/
theorem parse_utf8 {text key s : String} {j : Json} (parsed : parse? text = some j)
    (found : j.stringField? key = some s) : isUtf8 s = true := by
  obtain ⟨fields, rfl, mem⟩ := Json.mem_of_stringField found
  unfold parse? at parsed
  split at parsed
  · rename_i j' read
    obtain rfl := Option.some.inj parsed
    exact readValue_fields_utf8 read mem
  · cases parsed

end JsonDump

/-- What the program relies on: a value that has been dumped is parsed back, and a string that
has been parsed is UTF-8. -/
structure Nlohmann.Standard (lib : Nlohmann) : Prop where
  parse_dump : ∀ j, JsonDump.printable j = true → lib.parse? (lib.dump j) = some j
  utf8 : ∀ text j key s, lib.parse? text = some j → j.stringField? key = some s → isUtf8 s = true

/-- A JSON library without floating-point numbers. -/
def dumpLib : Nlohmann where
  parse? := JsonDump.parse?
  dump := JsonDump.dump
  castOverflow _ := 0

theorem dumpLib_standard : dumpLib.Standard :=
  ⟨fun _ => JsonDump.parse_dump, fun _ _ _ _ => JsonDump.parse_utf8⟩

end Lynks
