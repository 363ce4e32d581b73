import Mathlib.Data.List.Basic
import Lynks.Json

/-!
# The text of a flat JSON object

An executable reader for the part of JSON that the replies of the program are written in:
objects whose keys and values are strings of printable ASCII without escapes. A JSON library
reads at least these (`Nlohmann.ReadsFlatObjects`).
-/

namespace Lynks
set_option autoImplicit false

namespace JsonText

/-- White space between tokens. -/
def isBlank (c : Char) : Bool := c = ' ' || c = '\t' || c = '\n' || c = '\r'

/-- A character that stands for itself in a string. -/
def isPlain (c : Char) : Bool := ' ' ≤ c && c ≤ '~' && c ≠ '"' && c ≠ '\\'

def skipBlanks (cs : List Char) : List Char := cs.dropWhile isBlank

/-- A string in quotes. -/
def readQuoted : List Char → Option (String × List Char)
  | '"' :: cs =>
    match cs.dropWhile isPlain with
    | '"' :: rest => some (String.ofList (cs.takeWhile isPlain), rest)
    | _ => none
  | _ => none

/-- A key and its value. -/
def readMember (cs : List Char) : Option ((String × Json) × List Char) :=
  match readQuoted (skipBlanks cs) with
  | none => none
  | some (key, cs) =>
    match skipBlanks cs with
    | ':' :: cs => (readQuoted (skipBlanks cs)).map fun (value, cs) => ((key, .string value), cs)
    | _ => none

/-- At most `n` members, separated by commas. -/
def readMembers : Nat → List Char → Option (List (String × Json) × List Char)
  | 0, _ => none
  | n + 1, cs =>
    match readMember cs with
    | none => none
    | some (member, cs) =>
      match skipBlanks cs with
      | ',' :: cs => (readMembers n cs).map fun (members, cs) => (member :: members, cs)
      | cs => some ([member], cs)

/-- A whole text that is one such object, with its keys in order. -/
def readFlatObject (text : String) : Option Json :=
  match skipBlanks text.toList with
  | '\x7b' :: cs =>
    match readMembers text.length cs with
    | some (members, '\x7d' :: rest) =>
      if skipBlanks rest = [] ∧ (members.map (·.1)).Pairwise (· < ·) then some (.object members)
      else none
    | _ => none
  | _ => none

/-- A key and its value, as the replies print them. -/
def memberText (m : List Char × List Char) : List Char :=
  '"' :: m.1 ++ '"' :: ':' :: ' ' :: '"' :: m.2 ++ ['"']

/-- The members of an object, with commas between them. -/
def membersText : List (List Char × List Char) → List Char
  | [] => []
  | [m] => memberText m
  | m :: ms => memberText m ++ ',' :: membersText ms

theorem membersText_cons (m m' : List Char × List Char) (ms : List (List Char × List Char)) :
    membersText (m :: m' :: ms) = memberText m ++ ',' :: membersText (m' :: ms) := rfl

/-- The member that is printed so. -/
def field (m : List Char × List Char) : String × Json :=
  (String.ofList m.1, .string (String.ofList m.2))

/-- Key and value need no escape. -/
def Plain (m : List Char × List Char) : Prop :=
  (∀ c ∈ m.1, isPlain c = true) ∧ ∀ c ∈ m.2, isPlain c = true

theorem readQuoted_plain {body : List Char} (plain : ∀ c ∈ body, isPlain c = true)
    (rest : List Char) :
    readQuoted ('"' :: (body ++ '"' :: rest)) = some (String.ofList body, rest) := by
  have stop : isPlain '"' = false := by decide
  simp [readQuoted, List.dropWhile_append_of_pos plain, List.takeWhile_append_of_pos plain, stop]

theorem skipBlanks_quote (cs : List Char) : skipBlanks ('"' :: cs) = '"' :: cs := by
  have stop : isBlank '"' = false := by decide
  simp [skipBlanks, stop]

/-- What is printed as a member is read as one. -/
theorem readMember_memberText {m : List Char × List Char} (plain : Plain m) (rest : List Char) :
    readMember (memberText m ++ rest) = some (field m, rest) := by
  have text : memberText m ++ rest =
      '"' :: (m.1 ++ '"' :: ':' :: ' ' :: '"' :: (m.2 ++ '"' :: rest)) := by simp [memberText]
  have colon : ∀ cs, skipBlanks (':' :: cs) = ':' :: cs := fun cs => by
    have stop : isBlank ':' = false := by decide
    simp [skipBlanks, stop]
  have blank : ∀ cs, skipBlanks (' ' :: '"' :: cs) = '"' :: cs := fun cs => by
    simp [skipBlanks, isBlank]
  rw [text, readMember, skipBlanks_quote, readQuoted_plain plain.1]
  simp only [colon, blank, readQuoted_plain plain.2, Option.map_some, field]

/-- What is printed as members is read as these, up to the brace. -/
theorem readMembers_membersText {ms : List (List Char × List Char)} {n : Nat}
    (plain : ∀ m ∈ ms, Plain m) (nonempty : ms ≠ []) (enough : ms.length ≤ n) (rest : List Char) :
    readMembers n (membersText ms ++ '\x7d' :: rest) = some (ms.map field, '\x7d' :: rest) := by
  have brace : skipBlanks ('\x7d' :: rest) = '\x7d' :: rest := by
    have stop : isBlank '\x7d' = false := by decide
    simp [skipBlanks, stop]
  have comma : ∀ cs, skipBlanks (',' :: cs) = ',' :: cs := fun cs => by
    have stop : isBlank ',' = false := by decide
    simp [skipBlanks, stop]
  induction ms generalizing n with
  | nil => exact absurd rfl nonempty
  | cons m ms ih =>
    have here : Plain m := plain m List.mem_cons_self
    obtain ⟨n, rfl⟩ : ∃ k, n = k + 1 := ⟨n - 1, by simp at enough; omega⟩
    cases ms with
    | nil =>
      rw [membersText, readMembers, readMember_memberText here]
      simp only [brace]
      rfl
    | cons m' ms =>
      have later : readMembers n (membersText (m' :: ms) ++ '\x7d' :: rest) =
          some ((m' :: ms).map field, '\x7d' :: rest) := by
        apply ih (fun x mem => plain x (List.mem_cons_of_mem _ mem)) (List.cons_ne_nil m' ms)
        simpa using enough
      rw [membersText_cons, List.append_assoc, readMembers, readMember_memberText here]
      simp only [List.cons_append, comma, later, Option.map_some, List.map_cons]

theorem length_membersText (ms : List (List Char × List Char)) :
    ms.length ≤ (membersText ms).length := by
  induction ms with
  | nil => exact Nat.le_refl 0
  | cons m ms ih =>
    cases ms with
    | nil => simp [membersText, memberText]
    | cons m' ms =>
      rw [membersText_cons, List.length_append, List.length_cons]
      simp only [List.length_cons] at ih ⊢
      omega

/-- **A printed object reads back.** -/
theorem readFlatObject_membersText {ms : List (List Char × List Char)} {text : String}
    (written : text.toList = '\x7b' :: (membersText ms ++ ['\x7d'])) (nonempty : ms ≠ [])
    (plain : ∀ m ∈ ms, Plain m) (sorted : ((ms.map field).map (·.1)).Pairwise (· < ·)) :
    readFlatObject text = some (.object (ms.map field)) := by
  have brace : ∀ cs, skipBlanks ('\x7b' :: cs) = '\x7b' :: cs := fun cs => by
    have stop : isBlank '\x7b' = false := by decide
    simp [skipBlanks, stop]
  have enough : ms.length ≤ text.length := by
    have counted : ms.length ≤ (membersText ms).length := length_membersText ms
    rw [← String.length_toList, written, List.length_cons, List.length_append]
    omega
  rw [readFlatObject, written, brace]
  simp only [readMembers_membersText plain nonempty enough []]
  rw [if_pos ⟨rfl, sorted⟩]

end JsonText

/-- The library reads every flat object. -/
def Nlohmann.ReadsFlatObjects (lib : Nlohmann) : Prop :=
  ∀ text j, JsonText.readFlatObject text = some j → lib.parse? text = some j

end Lynks
