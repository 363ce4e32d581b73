import Lynks.JsonDump

/-!
# `response_message`

One event or response of Janus: its type, the transaction that correlates it with a request,
and the JSON text itself.
-/

namespace Lynks.Janus
set_option autoImplicit false

open Lib

/-- `janus::response_message`. -/
structure ResponseMessage where
  eventType : String
  transaction : String
  body : String
  deriving DecidableEq, Repr

namespace ResponseMessage

variable (lib : Nlohmann)

/-- The transaction of a message, empty when it leaves it out. -/
def readTransaction (json : Json) : Outcome Exception String :=
  if json.contains "transaction" then json.readString "transaction" else pure ""

/-- `response_message::parse_json`, which the constructor from a string calls. The values read
are there when no `get` throws, so the printed object is the parsed one. -/
def parseJson (jsonStr : String) : Outcome Exception ResponseMessage := do
  let json ← lib.parse jsonStr
  let eventType ← json.readString "janus"
  let transaction ← readTransaction json
  pure { eventType, transaction, body := lib.dump json }

/-- All fields are UTF-8. -/
def utf8 (m : ResponseMessage) : Bool := isUtf8 m.eventType && isUtf8 m.transaction && isUtf8 m.body

/-- The object `to_json` prints. -/
def encoded (m : ResponseMessage) : Json :=
  .object [("data", .string m.body), ("janus", .string m.eventType),
    ("transaction", .string m.transaction)]

/-- `response_message::to_json`. The exception that `dump` throws on other bytes is caught. -/
def toJson (m : ResponseMessage) : String := if m.utf8 then lib.dump m.encoded else "null"

end ResponseMessage

/-- The transaction of a message that may leave it out: `none` when it is there but no string. -/
def transactionOf (j : Json) : Option String :=
  match j.field? "transaction" with
  | none => some ""
  | some (.string t) => some t
  | some _ => none

theorem readTransaction_eq_ok {j : Json} {t : String} :
    ResponseMessage.readTransaction j = .ok t ↔ transactionOf j = some t := by
  unfold ResponseMessage.readTransaction transactionOf Json.contains
  cases found : j.field? "transaction" with
  | none => simp
  | some v =>
    simp only [Option.isSome_some, if_true, Json.readString_eq_ok, Json.stringField?, found]
    cases v <;> simp

namespace ResponseMessage

variable {lib : Nlohmann}

/-- The texts `parse_json` accepts, and what it makes of them. -/
theorem parseJson_eq_ok {s : String} {m : ResponseMessage} : parseJson lib s = .ok m ↔
    ∃ j, lib.parse? s = some j ∧ j.stringField? "janus" = some m.eventType ∧
      transactionOf j = some m.transaction ∧ m.body = lib.dump j := by
  unfold parseJson Nlohmann.parse
  cases parsed : lib.parse? s with
  | none => simp
  | some j =>
    simp only [Outcome.ok_bind, Outcome.bind_eq_ok, Json.readString_eq_ok, readTransaction_eq_ok,
      Outcome.pure_eq, Outcome.ok.injEq, Option.some.injEq, exists_eq_left']
    constructor
    · rintro ⟨ev, janus, t, tx, rfl⟩
      exact ⟨janus, tx, rfl⟩
    · rintro ⟨janus, tx, body⟩
      exact ⟨_, janus, _, tx, by rw [← body]⟩

/-- `parse_json` returns or throws. -/
theorem parseJson_ne_undefined (s : String) : parseJson lib s ≠ .undefined := by
  unfold parseJson Nlohmann.parse
  cases lib.parse? s with
  | none => simp
  | some j =>
    rcases j.readString_cases "janus" with ⟨ev, read, -⟩ | ⟨e, read, -⟩
    · simp only [Outcome.ok_bind, read, readTransaction]
      split
      · rcases j.readString_cases "transaction" with ⟨t, read, -⟩ | ⟨e, read, -⟩ <;> simp [read]
      · simp
    · simp [read]

theorem encoded_printable {m : ResponseMessage} (utf8 : m.utf8 = true) :
    JsonDump.printable m.encoded = true := by
  have keys : isUtf8 "data" = true ∧ isUtf8 "janus" = true ∧ isUtf8 "transaction" = true :=
    ⟨rfl, rfl, rfl⟩
  simp only [ResponseMessage.utf8, Bool.and_eq_true] at utf8
  apply JsonDump.printable_object
  · change ["data", "janus", "transaction"].Pairwise (· < ·)
    decide
  · simp [JsonDump.printable, JsonDump.printableFields, keys, utf8]

/-- **Main result.** A message that is encoded and decoded keeps its type and its transaction;
its body becomes the whole encoded text, which has the body it had under `data`. -/
theorem parseJson_toJson (standard : lib.Standard) {m : ResponseMessage} (utf8 : m.utf8 = true) :
    ∃ m', parseJson lib (m.toJson lib) = .ok m' ∧ m'.eventType = m.eventType ∧
      m'.transaction = m.transaction ∧ m'.body = m.toJson lib ∧
      ∃ j, lib.parse? m'.body = some j ∧ j.stringField? "data" = some m.body := by
  have text : m.toJson lib = lib.dump m.encoded := if_pos utf8
  have parsed := standard.parse_dump _ (encoded_printable utf8)
  refine ⟨⟨m.eventType, m.transaction, m.toJson lib⟩, ?_, rfl, rfl, rfl, m.encoded, ?_, rfl⟩
  · rw [parseJson_eq_ok, text]
    exact ⟨m.encoded, parsed, rfl, rfl, rfl⟩
  · rw [text]
    exact parsed

/-- An acknowledgement, as `parse_json` reads it. -/
def anAck : ResponseMessage :=
  ⟨"ack", "t1", "\x7b\"janus\":\"ack\",\"transaction\":\"t1\"\x7d"⟩

theorem parseJson_toJson_ack : ∃ m', parseJson dumpLib (anAck.toJson dumpLib) = .ok m' ∧
    m'.eventType = "ack" ∧ m'.transaction = "t1" := by
  have utf8 : anAck.utf8 = true := by decide
  obtain ⟨m', parsed, event, tx, -⟩ := parseJson_toJson dumpLib_standard utf8
  exact ⟨m', parsed, event, tx⟩

/-- Decoding does not undo encoding, not even for a message that has been decoded. -/
theorem reencoded_body_differs :
    parseJson dumpLib "\x7b\"janus\":\"ack\",\"transaction\":\"t1\"\x7d" = .ok anAck ∧
    anAck.utf8 = true ∧
    ∃ m', parseJson dumpLib (anAck.toJson dumpLib) = .ok m' ∧ m'.body ≠ anAck.body := by
  have utf8 : anAck.utf8 = true := by decide
  have text : anAck.toJson dumpLib = dumpLib.dump anAck.encoded := if_pos utf8
  have parsed := dumpLib_standard.parse_dump _ (encoded_printable utf8)
  have longer : (dumpLib.dump anAck.encoded).length ≠ anAck.body.length := by decide
  refine ⟨rfl, utf8, ⟨"ack", "t1", dumpLib.dump anAck.encoded⟩, ?_, ?_⟩
  · rw [parseJson_eq_ok, text]
    exact ⟨anAck.encoded, parsed, rfl, rfl, rfl⟩
  · intro same
    exact longer (congrArg String.length same)

end ResponseMessage

end Lynks.Janus
