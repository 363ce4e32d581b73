import Mathlib
import Lynks.Network.Crypto

/-!
# Generated tokens

A token is the hash of two hashes: `session_handler::generate_token` hashes a number and a word
of ten bytes twice over, `random_engine::generate_token` a number. Each step from the draws to
the strings hashed loses nothing: the words have one length and the hashes another, so they can
be cut off again, and decimal and hexadecimal printing are injective. So only the digest function
can make two tokens equal (`tokens_clash_by_digest`).
-/

namespace Lynks
set_option autoImplicit false

/-! ## Hexadecimal text -/

theorem hexDigit_injective : ∀ m < 16, ∀ n < 16, hexDigit m = hexDigit n → m = n := by decide

theorem hexByte_injective {b c : UInt8} (same : hexByte b = hexByte c) : b = c := by
  have small (d : UInt8) : d.toNat < 256 := d.toNat_lt
  have digits := List.cons_eq_cons.1 same
  have high : b.toNat / 16 = c.toNat / 16 := by
    apply hexDigit_injective
    · have := small b; omega
    · have := small c; omega
    · exact digits.1
  have low : b.toNat % 16 = c.toNat % 16 := by
    apply hexDigit_injective
    · omega
    · omega
    · exact (List.cons_eq_cons.1 digits.2).1
  apply UInt8.toNat_inj.1
  omega

/-- The text of the first byte is cut off, and the rest follows by induction. -/
theorem hexText_injective {bs cs : List UInt8}
    (same : bs.flatMap hexByte = cs.flatMap hexByte) : bs = cs := by
  induction bs generalizing cs with
  | nil =>
    cases cs with
    | nil => exact Eq.refl _
    | cons c cs => cases same
  | cons b bs ih =>
    cases cs with
    | nil => cases same
    | cons c cs =>
      have width (d : UInt8) : (hexByte d).length = 2 := Eq.refl 2
      rw [List.flatMap_cons, List.flatMap_cons] at same
      obtain ⟨first, rest⟩ := List.append_inj same ((width b).trans (width c).symm)
      rw [hexByte_injective first, ih rest]

/-- Equal hashes come from equal digests. -/
theorem digest_eq_of_hash256 {sha : Sha256} {a b : String} (same : hash256 sha a = hash256 sha b) :
    sha.digest a = sha.digest b := by
  have text := hexText_injective (String.ofList_injective same)
  exact Vector.toList_inj.1 text

/-- The sixteen digits in use. -/
def hexDigits : List Char := "0123456789abcdef".toList

theorem hexDigit_mem : ∀ n < 16, hexDigit n ∈ hexDigits := by decide

/-- A text of 64 lowercase hexadecimal digits. -/
def IsHash (text : String) : Prop := text.length = 64 ∧ ∀ c ∈ text.toList, c ∈ hexDigits

theorem hash256_isHash (sha : Sha256) (str : String) : IsHash (hash256 sha str) := by
  refine ⟨hash256_length sha str, ?_⟩
  intro c mem
  rw [hash256, String.toList_ofList, List.mem_flatMap] at mem
  obtain ⟨b, -, mem⟩ := mem
  have byte : b.toNat < 256 := b.toNat_lt
  cases mem with
  | head => exact hexDigit_mem (b.toNat / 16) (by omega)
  | tail _ mem =>
    rw [List.mem_singleton.1 mem]
    exact hexDigit_mem (b.toNat % 16) (by omega)

/-! ## The two generators -/

/-- What `generate_token` draws: two numbers and two words of ten bytes. -/
structure Draws where
  raw₁ : Int64
  word₁ : Vector UInt8 10
  raw₂ : Int64
  word₂ : Vector UInt8 10

/-- `session_handler::generate_word`, of the bytes drawn. -/
def generateWord (bytes : Vector UInt8 10) : String :=
  String.ofList (bytes.toList.map fun b => Char.ofNat b.toNat)

/-- `session_handler::generate_token`. -/
def generateToken (sha : Sha256) (draws : Draws) : String :=
  let hash1 := hash256 sha (toString draws.raw₁.toInt ++ generateWord draws.word₁)
  let hash2 := hash256 sha (toString draws.raw₂.toInt ++ generateWord draws.word₂)
  hash256 sha (hash1 ++ hash2)

/-- `random_engine::generate_token`, of the two numbers drawn. -/
def RandomEngine.generateToken {T : Type} [ToString T] (sha : Sha256) (n₁ n₂ : T) : String :=
  let hash_1 := hash256 sha (toString n₁)
  let hash_2 := hash256 sha (toString n₂)
  hash256 sha (hash_1 ++ hash_2)

/-! ## What a clash of tokens shows -/

/-- Two of these strings are different and have the same digest. -/
def Sha256.Collides (sha : Sha256) (hashed : List String) : Prop :=
  ∃ a ∈ hashed, ∃ b ∈ hashed, a ≠ b ∧ sha.digest a = sha.digest b

/-- What is hashed to make a token of two strings, in the order of the calls. -/
def preimages (sha : Sha256) (first second : String) : List String :=
  [first, second, hash256 sha first ++ hash256 sha second]

/-- The strings hashed by `session_handler::generate_token`. -/
def Draws.hashed (sha : Sha256) (draws : Draws) : List String :=
  preimages sha (toString draws.raw₁.toInt ++ generateWord draws.word₁)
    (toString draws.raw₂.toInt ++ generateWord draws.word₂)

/-- The strings hashed by `random_engine::generate_token`. -/
def RandomEngine.hashed {T : Type} [ToString T] (sha : Sha256) (n₁ n₂ : T) : List String :=
  preimages sha (toString n₁) (toString n₂)

theorem append_inj_of_length {a b c d : String} (same : a ++ b = c ++ d)
    (length : a.length = c.length ∨ b.length = d.length) : a = c ∧ b = d := by
  have chars : a.toList ++ b.toList = c.toList ++ d.toList := by
    rw [← String.toList_append, ← String.toList_append, same]
  have parts : a.toList = c.toList ∧ b.toList = d.toList := by
    rcases length with left | right
    · exact List.append_inj chars left
    · exact List.append_inj' chars right
  exact ⟨String.toList_inj.1 parts.1, String.toList_inj.1 parts.2⟩

/-- Equal hashes of strings hashed come from equal strings, or show a collision. -/
theorem eq_or_collides {sha : Sha256} {hashed : List String} {a b : String}
    (left : a ∈ hashed) (right : b ∈ hashed) (same : hash256 sha a = hash256 sha b) :
    a = b ∨ sha.Collides hashed := by
  by_cases equal : a = b
  · exact Or.inl equal
  · exact Or.inr ⟨a, left, b, right, equal, digest_eq_of_hash256 same⟩

/-- The outer hash is undone first, then the two inner ones, which have one length. -/
theorem hash_of_hashes_clash {sha : Sha256} {a b c d : String}
    (same : hash256 sha (hash256 sha a ++ hash256 sha b) =
      hash256 sha (hash256 sha c ++ hash256 sha d)) :
    (a = c ∧ b = d) ∨ sha.Collides (preimages sha a b ++ preimages sha c d) := by
  let hashed := preimages sha a b ++ preimages sha c d
  have member {x : String} (mem : x ∈ preimages sha a b ∨ x ∈ preimages sha c d) : x ∈ hashed :=
    List.mem_append.2 mem
  have lengths : (hash256 sha a).length = (hash256 sha c).length := by
    rw [hash256_length, hash256_length]
  have outer := eq_or_collides (member (Or.inl (by simp [preimages])))
    (member (Or.inr (by simp [preimages]))) same
  rcases outer with joined | collision
  · obtain ⟨one, two⟩ := append_inj_of_length joined (Or.inl lengths)
    have first := eq_or_collides (member (Or.inl (by simp [preimages])))
      (member (Or.inr (by simp [preimages]))) one
    have second := eq_or_collides (member (Or.inl (by simp [preimages])))
      (member (Or.inr (by simp [preimages]))) two
    rcases first with first | collision
    · rcases second with second | collision
      · exact Or.inl ⟨first, second⟩
      · exact Or.inr collision
    · exact Or.inr collision
  · exact Or.inr collision

/-! ## Draws are not lost in print -/

theorem generateWord_length (bytes : Vector UInt8 10) : (generateWord bytes).length = 10 := by
  rw [generateWord, String.length_ofList, List.length_map, Vector.length_toList]

theorem byteChar_injective {b c : UInt8} (same : Char.ofNat b.toNat = Char.ofNat c.toNat) :
    b = c := by
  have code (d : UInt8) : (Char.ofNat d.toNat).toNat = d.toNat := by
    have byte : d.toNat < 256 := d.toNat_lt
    have valid : d.toNat.isValidChar := Or.inl (by omega)
    rw [Char.ofNat, dif_pos valid]
    exact UInt32.toNat_ofNatLT
  apply UInt8.toNat_inj.1
  rw [← code b, ← code c, same]

theorem generateWord_injective {v w : Vector UInt8 10} (same : generateWord v = generateWord w) :
    v = w := by
  have chars := String.ofList_injective same
  have inj : Function.Injective fun b : UInt8 => Char.ofNat b.toNat :=
    fun _ _ equal => byteChar_injective equal
  exact Vector.toList_inj.1 (List.map_injective_iff.2 inj chars)

theorem int64Text_injective {m n : Int64} (same : toString m.toInt = toString n.toInt) :
    m = n :=
  Int64.toInt_inj.1 (Int.repr_injective same)

theorem uint64Text_injective {m n : UInt64} (same : toString m = toString n) : m = n :=
  UInt64.toNat_inj.1 (Nat.repr_injective same)

/-- The word is cut off at its fixed length; what is left is the number, sign and all. -/
theorem numberAndWord_injective {m n : Int64} {v w : Vector UInt8 10}
    (same : toString m.toInt ++ generateWord v = toString n.toInt ++ generateWord w) :
    m = n ∧ v = w := by
  have lengths : (generateWord v).length = (generateWord w).length := by
    rw [generateWord_length, generateWord_length]
  obtain ⟨number, word⟩ := append_inj_of_length same (Or.inr lengths)
  exact ⟨int64Text_injective number, generateWord_injective word⟩

/-- **Main result.** A token is 64 hexadecimal digits, and two equal ones were made of the same
draws, or else two different strings hashed on the way have the same digest. -/
theorem tokens_clash_by_digest (sha : Sha256) :
    (∀ draws : Draws, IsHash (generateToken sha draws)) ∧
    (∀ draws draws' : Draws, generateToken sha draws = generateToken sha draws' →
      draws = draws' ∨ sha.Collides (draws.hashed sha ++ draws'.hashed sha)) ∧
    (∀ n₁ n₂ : UInt64, IsHash (RandomEngine.generateToken sha n₁ n₂)) ∧
    (∀ n₁ n₂ m₁ m₂ : UInt64,
      RandomEngine.generateToken sha n₁ n₂ = RandomEngine.generateToken sha m₁ m₂ →
      (n₁ = m₁ ∧ n₂ = m₂) ∨
        sha.Collides (RandomEngine.hashed sha n₁ n₂ ++ RandomEngine.hashed sha m₁ m₂)) := by
  refine ⟨fun draws => hash256_isHash sha _, ?_, fun n₁ n₂ => hash256_isHash sha _, ?_⟩
  · intro draws draws' same
    rcases hash_of_hashes_clash same with ⟨one, two⟩ | collision
    · obtain ⟨raw₁, word₁⟩ := numberAndWord_injective one
      obtain ⟨raw₂, word₂⟩ := numberAndWord_injective two
      cases draws
      cases draws'
      simp only at raw₁ word₁ raw₂ word₂
      rw [raw₁, word₁, raw₂, word₂]
      exact Or.inl (Eq.refl _)
    · exact Or.inr collision
  · intro n₁ n₂ m₁ m₂ same
    rcases hash_of_hashes_clash same with ⟨one, two⟩ | collision
    · exact Or.inl ⟨uint64Text_injective one, uint64Text_injective two⟩
    · exact Or.inr collision

end Lynks
