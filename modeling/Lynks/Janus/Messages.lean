import Lynks.Json

/-!
# Janus message wrappers

The request and response classes of `janus::messages`. A request is a value with its JSON
text; a response is parsed from the text Janus returned, and its constructor throws when a
field is missing or of another type.
-/

namespace Lynks.Janus
set_option autoImplicit false

open Lib

variable (lib : Nlohmann)

/-! ## `session` -/

/-- `session::create_session_request`. -/
structure CreateSessionRequest where
  janus : String
  transaction : String

def CreateSessionRequest.new (tx : String) : CreateSessionRequest :=
  { janus := "create", transaction := tx }

def CreateSessionRequest.toJson (r : CreateSessionRequest) : String :=
  lib.dump (.object [("janus", .string r.janus), ("transaction", .string r.transaction)])

/-- `json["data"]["id"].get<uint64_t>()`, printed by `std::to_string`. -/
def readDataId (json : Json) : Outcome Exception String := do
  let data ← json.subscript "data"
  let id ← data.subscript "id"
  let n ← id.getUInt64 lib
  pure (toString n.toNat)

/-- `session::create_session_response`. -/
structure CreateSessionResponse where
  jsonOrg : String
  janus : String
  transaction : String
  sessionId : String

def CreateSessionResponse.new (jsonStr : String) : Outcome Exception CreateSessionResponse := do
  let json ← lib.parse jsonStr
  let janus ← json.readString "janus"
  let transaction ← json.readString "transaction"
  let sessionId ← readDataId lib json
  pure { jsonOrg := jsonStr, janus, transaction, sessionId }

/-- `session::attach_plugin_request`. -/
structure AttachPluginRequest where
  janus : String
  pluginName : String
  transaction : String

def AttachPluginRequest.new (tx pluginName : String) : AttachPluginRequest :=
  { janus := "attach", pluginName, transaction := tx }

def AttachPluginRequest.toJson (r : AttachPluginRequest) : String :=
  lib.dump (.object [("janus", .string r.janus), ("plugin", .string r.pluginName),
    ("transaction", .string r.transaction)])

/-- `session::attach_plugin_response`. -/
structure AttachPluginResponse where
  jsonOrg : String
  janus : String
  transaction : String
  pluginHandle : String

def AttachPluginResponse.new (jsonStr : String) : Outcome Exception AttachPluginResponse := do
  let json ← lib.parse jsonStr
  let janus ← json.readString "janus"
  let transaction ← json.readString "transaction"
  let pluginHandle ← readDataId lib json
  pure { jsonOrg := jsonStr, janus, transaction, pluginHandle }

/-- `session::keep_alive_message`. -/
structure KeepAliveMessage where
  jsonOrg : String
  janus : String

/-- The constructor takes any string under `janus`. -/
def KeepAliveMessage.new (jsonStr : String) : Outcome Exception KeepAliveMessage := do
  let json ← lib.parse jsonStr
  let janus ← json.readString "janus"
  pure { jsonOrg := jsonStr, janus }

/-! ## `video_room` -/

/-- `video_room::create_room_request`. -/
structure CreateRoomRequest where
  janus : String
  request : String
  isPrivate : Bool
  transaction : String
  roomId : UInt64

def CreateRoomRequest.new : CreateRoomRequest :=
  { janus := "message", request := "create", isPrivate := false, transaction := "test123",
    roomId := 123456 }

def CreateRoomRequest.toJson (r : CreateRoomRequest) : String :=
  lib.dump (.object [("body", .object [("is_private", .boolean r.isPrivate),
    ("request", .string r.request), ("room", .unsigned r.roomId)]),
    ("janus", .string r.janus), ("transaction", .string r.transaction)])

/-- `json["plugindata"]["data"]`. -/
def readPluginData (json : Json) : Outcome Exception Json := do
  let plugindata ← json.subscript "plugindata"
  plugindata.subscript "data"

/-- `json["plugindata"]["data"]["room"].get<uint64_t>()`. -/
def readRoom (json : Json) : Outcome Exception UInt64 := do
  let data ← readPluginData json
  let room ← data.subscript "room"
  room.getUInt64 lib

/-- `video_room::user_create_video_response`. -/
structure UserCreateVideoResponse where
  jsonOrg : String
  janus : String
  roomId : UInt64
  transaction : String

def UserCreateVideoResponse.new (jsonStr : String) :
    Outcome Exception UserCreateVideoResponse := do
  let json ← lib.parse jsonStr
  let janus ← json.readString "janus"
  let transaction ← json.readString "transaction"
  let roomId ← readRoom lib json
  pure { jsonOrg := jsonStr, janus, roomId, transaction }

def UserCreateVideoResponse.toJson (r : UserCreateVideoResponse) : String :=
  lib.dump (.object [("action", .string r.janus), ("room_id", .unsigned r.roomId)])

/-- `video_room::list_participants_request`. -/
structure ListParticipantsRequest where
  janus : String
  transaction : String
  request : String
  roomId : UInt64

def ListParticipantsRequest.new (jsonStr : String) :
    Outcome Exception ListParticipantsRequest := do
  let json ← lib.parse jsonStr
  let room ← json.subscript "room_id"
  let roomId ← room.getUInt64 lib
  pure { janus := "message", transaction := "test123", request := "listparticipants", roomId }

def ListParticipantsRequest.toJson (r : ListParticipantsRequest) : String :=
  lib.dump (.object [("body", .object [("request", .string r.request),
    ("room", .unsigned r.roomId)]), ("janus", .string r.janus),
    ("transaction", .string r.transaction)])

/-- The loop over `participants`: an entry is skipped, gives a feed id, or ends the loop with
an exception. `publisher` is read through the const `operator[]` before anything asks whether
the entry has it. -/
def readFeedIds : List Json → Outcome Exception (List UInt64)
  | [] => .ok []
  | p :: ps =>
    if !p.isObject then readFeedIds ps
    else do
      let flag ← p.subscriptConst "publisher"
      let publisher ← flag.getBool
      if !publisher then readFeedIds ps
      else if !p.contains "id" then readFeedIds ps
      else do
        let value ← p.subscriptConst "id"
        let id ← value.getUInt64 lib
        let rest ← readFeedIds ps
        pure (id :: rest)

/-- `video_room::list_participants_response`. -/
structure ListParticipantsResponse where
  jsonOrg : String
  janus : String
  transaction : String
  videoroom : String
  roomId : UInt64
  feedIds : List UInt64

/-- `data.contains("participants") && data["participants"].is_array()`, and then its elements. -/
def participantsOf (data : Json) : List Json :=
  match data.field? "participants" with
  | some v => if v.isArray then v.elements else []
  | none => []

def ListParticipantsResponse.new (jsonStr : String) :
    Outcome Exception ListParticipantsResponse := do
  let json ← lib.parse jsonStr
  let janus ← json.readString "janus"
  let transaction ← json.readString "transaction"
  let data ← readPluginData json
  let videoroom ← data.readString "videoroom"
  let roomId ← readRoom lib json
  let feedIds ← readFeedIds lib (participantsOf data)
  pure { jsonOrg := jsonStr, janus, transaction, videoroom, roomId, feedIds }

def ListParticipantsResponse.toJson (r : ListParticipantsResponse) : String :=
  lib.dump (.object [("action", .string r.janus),
    ("publishers", .array (r.feedIds.map .unsigned)), ("room_id", .unsigned r.roomId)])

variable {lib}

/-- The texts `keep_alive_message` accepts: any object with a string under `janus`. -/
theorem KeepAliveMessage.new_cases (s : String) :
    (∃ k j, new lib s = .ok k ∧ lib.parse? s = some j ∧ j.stringField? "janus" = some k.janus) ∨
      ∃ e, new lib s = .throws e ∧ ∀ j, lib.parse? s = some j → j.stringField? "janus" = none := by
  unfold KeepAliveMessage.new Nlohmann.parse
  cases parsed : lib.parse? s with
  | none => exact Or.inr ⟨.parseError, by simp, by simp⟩
  | some j =>
    rcases j.readString_cases "janus" with ⟨ev, read, found⟩ | ⟨e, read, missing⟩
    · exact Or.inl ⟨⟨s, ev⟩, j, by simp [read], rfl, found⟩
    · exact Or.inr ⟨e, by simp [read], fun _ same => Option.some.inj same ▸ missing⟩

/-! ## Where a constructor has no defined behaviour -/

theorem readPluginData_ne_undefined (json : Json) : readPluginData json ≠ .undefined := by
  unfold readPluginData
  rw [Ne, Outcome.bind_eq_undefined]
  rintro (first | ⟨data, -, second⟩)
  · exact Json.subscript_ne_undefined _ _ first
  · exact Json.subscript_ne_undefined _ _ second

theorem readRoom_ne_undefined (json : Json) : readRoom lib json ≠ .undefined := by
  unfold readRoom
  simp only [Ne, Outcome.bind_eq_undefined, not_or, not_exists, not_and]
  refine ⟨readPluginData_ne_undefined json, fun data _ => ?_⟩
  exact ⟨Json.subscript_ne_undefined _ _, fun room _ => Json.getUInt64_ne_undefined lib room⟩

theorem parse_ne_undefined (s : String) : lib.parse s ≠ .undefined := by
  unfold Nlohmann.parse
  cases lib.parse? s <;> simp

theorem parse_eq_ok {s : String} {j : Json} : lib.parse s = .ok j ↔ lib.parse? s = some j := by
  unfold Nlohmann.parse
  cases lib.parse? s <;> simp

theorem UserCreateVideoResponse.new_ne_undefined (s : String) : new lib s ≠ .undefined := by
  unfold UserCreateVideoResponse.new
  simp only [Ne, Outcome.bind_eq_undefined, Outcome.pure_eq, not_or, not_exists, not_and]
  refine ⟨parse_ne_undefined s, fun json _ => ⟨Json.readString_ne_undefined _ _, fun _ _ => ?_⟩⟩
  exact ⟨Json.readString_ne_undefined _ _, fun _ _ => ⟨readRoom_ne_undefined json, by simp⟩⟩

theorem ListParticipantsRequest.new_ne_undefined (s : String) : new lib s ≠ .undefined := by
  unfold ListParticipantsRequest.new
  simp only [Ne, Outcome.bind_eq_undefined, Outcome.pure_eq, not_or, not_exists, not_and]
  refine ⟨parse_ne_undefined s, fun json _ => ⟨Json.subscript_ne_undefined _ _, fun room _ => ?_⟩⟩
  exact ⟨Json.getUInt64_ne_undefined lib room, by simp⟩

/-- An entry of `participants` that the loop skips or reads. -/
def Readable (p : Json) : Prop :=
  p.isObject = true → ∃ publisher, p.field? "publisher" = some (.boolean publisher) ∧
    (publisher = true → ∀ id, p.field? "id" = some id → id.isNumber = true)

/-- The loop over `participants` comes to an object without `publisher`. -/
def ReachesMissingPublisher (ps : List Json) : Prop :=
  ∃ before p after, ps = before ++ p :: after ∧ (∀ q ∈ before, Readable q) ∧
    p.isObject = true ∧ p.field? "publisher" = none

theorem subscriptConst_of_object {p : Json} (object : p.isObject = true) (key : String) :
    p.subscriptConst key =
      match p.field? key with
      | some v => .ok v
      | none => .undefined := by
  cases p with
  | object fields => rfl
  | _ => cases object

/-- An object with `publisher` set to true. -/
def isPublisher (p : Json) : Bool :=
  match p.field? "publisher" with
  | some (.boolean true) => true
  | _ => false

/-- The `id` of a publisher that has one. -/
def publishedId? (p : Json) : Option Json := if isPublisher p then p.field? "id" else none

theorem publishedId_eq_some {p id : Json} : publishedId? p = some id ↔
    p.field? "publisher" = some (.boolean true) ∧ p.field? "id" = some id := by
  unfold publishedId? isPublisher
  split
  · rename_i flag
    simp [flag]
  · rename_i other
    simp only [Bool.false_eq_true, if_false, reduceCtorEq, false_iff, not_and]
    exact fun flag _ => other flag

theorem isObject_of_field {p v : Json} {key : String} (found : p.field? key = some v) :
    p.isObject = true := by
  cases p with
  | object fields => rfl
  | _ => cases found

/-- What the loop does with one entry: it passes over it, reads its `id`, or ends at it, without
defined behaviour or with an exception. -/
theorem readFeedIds_cons (lib : Nlohmann) (p : Json) (ps : List Json) :
    (Readable p ∧ publishedId? p = none ∧ readFeedIds lib (p :: ps) = readFeedIds lib ps) ∨
    (Readable p ∧ ∃ id n, publishedId? p = some id ∧ id.getUInt64 lib = .ok n ∧
      readFeedIds lib (p :: ps) = readFeedIds lib ps >>= fun rest => pure (n :: rest)) ∨
    (¬ Readable p ∧ (p.isObject = true ∧ p.field? "publisher" = none) ∧
      readFeedIds lib (p :: ps) = .undefined) ∨
    (¬ Readable p ∧ (∃ v, p.field? "publisher" = some v) ∧
      ∃ e, readFeedIds lib (p :: ps) = .throws e) := by
  rw [readFeedIds]
  by_cases object : p.isObject = true
  swap
  · refine Or.inl ⟨fun isObject => absurd isObject object, ?_, by simp [object]⟩
    cases published : publishedId? p with
    | none => rfl
    | some id => exact absurd (isObject_of_field (publishedId_eq_some.1 published).1) object
  simp only [object, Bool.not_true, Bool.false_eq_true, if_false, subscriptConst_of_object object]
  cases found : p.field? "publisher" with
  | none =>
    refine Or.inr (Or.inr (Or.inl ⟨?_, ⟨trivial, rfl⟩, rfl⟩))
    intro readable
    obtain ⟨publisher, found', -⟩ := readable object
    rw [found] at found'
    cases found'
  | some v =>
    cases v with
    | boolean publisher =>
      cases publisher with
      | false =>
        exact Or.inl ⟨fun _ => ⟨false, found, by simp⟩, by simp [publishedId?, isPublisher, found],
          rfl⟩
      | true =>
        cases given : p.field? "id" with
        | none =>
          exact Or.inl ⟨fun _ => ⟨true, found, by simp [given]⟩, by simp [publishedId?, given],
            by simp [Json.getBool, Json.contains, given]⟩
        | some id =>
          rcases id.getUInt64_cases lib with ⟨number, n, read⟩ | ⟨other, read⟩
          · exact Or.inr (Or.inl ⟨fun _ => ⟨true, found, by simp [given, number]⟩, id, n,
              publishedId_eq_some.2 ⟨found, given⟩, read,
              by simp [Json.getBool, Json.contains, given, read]⟩)
          · refine Or.inr (Or.inr (Or.inr ⟨?_, ⟨_, rfl⟩, .typeError 302,
              by simp [Json.getBool, Json.contains, given, read]⟩))
            intro readable
            obtain ⟨publisher, found', numbers⟩ := readable object
            obtain rfl : true = publisher := by simpa [found] using found'
            rw [numbers rfl id given] at other
            cases other
    | _ =>
      refine Or.inr (Or.inr (Or.inr ⟨?_, ⟨_, rfl⟩, .typeError 302, rfl⟩))
      intro readable
      obtain ⟨publisher, found', -⟩ := readable object
      simp [found] at found'

theorem reachesMissing_cons {p : Json} {ps : List Json} (readable : Readable p) :
    ReachesMissingPublisher (p :: ps) ↔ ReachesMissingPublisher ps := by
  constructor
  · rintro ⟨before, q, after, split, all, object, missing⟩
    cases before with
    | nil =>
      obtain ⟨rfl, rfl⟩ := List.cons.inj split
      obtain ⟨publisher, found, -⟩ := readable object
      rw [missing] at found
      cases found
    | cons q' before =>
      obtain ⟨rfl, rfl⟩ := List.cons.inj split
      exact ⟨before, q, after, rfl, fun q' mem => all q' (List.mem_cons_of_mem _ mem), object,
        missing⟩
  · rintro ⟨before, q, after, rfl, all, object, missing⟩
    refine ⟨p :: before, q, after, rfl, fun q' mem => ?_, object, missing⟩
    rcases List.mem_cons.1 mem with rfl | mem
    · exact readable
    · exact all q' mem

/-- An entry the loop throws on shields what follows. -/
theorem not_reachesMissing_cons {p : Json} {ps : List Json} {v : Json}
    (found : p.field? "publisher" = some v) (unreadable : ¬ Readable p) :
    ¬ ReachesMissingPublisher (p :: ps) := by
  rintro ⟨before, q, after, split, all, -, missing⟩
  cases before with
  | nil =>
    obtain ⟨rfl, rfl⟩ := List.cons.inj split
    rw [missing] at found
    cases found
  | cons q' before =>
    obtain ⟨rfl, rfl⟩ := List.cons.inj split
    exact unreadable (all p (List.mem_cons_self ..))

/-- **Where the loop over `participants` is undefined.** -/
theorem readFeedIds_eq_undefined (ps : List Json) :
    readFeedIds lib ps = .undefined ↔ ReachesMissingPublisher ps := by
  induction ps with
  | nil => simp [readFeedIds, ReachesMissingPublisher]
  | cons p ps ih =>
    rcases readFeedIds_cons lib p ps with
      ⟨readable, -, skips⟩ | ⟨readable, id, n, -, -, takes⟩ | ⟨-, missing, ends⟩ |
        ⟨unreadable, ⟨v, found⟩, e, ends⟩
    · rw [skips, reachesMissing_cons readable, ih]
    · rw [takes, reachesMissing_cons readable, ← ih, Outcome.bind_eq_undefined]
      simp
    · rw [ends, eq_self_iff_true, true_iff]
      exact ⟨[], p, ps, rfl, by simp, missing⟩
    · rw [ends]
      simp [not_reachesMissing_cons found unreadable]

/-- A reply that is well formed up to an object without `publisher` among its participants. -/
def MissingPublisher (lib : Nlohmann) (text : String) : Prop :=
  ∃ json data room, lib.parse? text = some json ∧ (json.stringField? "janus").isSome = true ∧
    (json.stringField? "transaction").isSome = true ∧ readPluginData json = .ok data ∧
    (data.stringField? "videoroom").isSome = true ∧ readRoom lib json = .ok room ∧
    ReachesMissingPublisher (participantsOf data)

/-- **Where `list_participants_response` is undefined.** -/
theorem ListParticipantsResponse.new_eq_undefined (text : String) :
    new lib text = .undefined ↔ MissingPublisher lib text := by
  unfold ListParticipantsResponse.new MissingPublisher
  simp only [Outcome.bind_eq_undefined, Outcome.pure_eq, parse_ne_undefined,
    Json.readString_ne_undefined, readPluginData_ne_undefined, readRoom_ne_undefined,
    readFeedIds_eq_undefined, reduceCtorEq, and_false, exists_false, or_false, false_or,
    parse_eq_ok, Json.readString_eq_ok, Option.isSome_iff_exists]
  constructor
  · rintro ⟨json, parsed, janus, hasJanus, tx, hasTx, data, plugin, video, hasVideo, room, hasRoom,
      reaches⟩
    exact ⟨json, data, room, parsed, ⟨janus, hasJanus⟩, ⟨tx, hasTx⟩, plugin, ⟨video, hasVideo⟩,
      hasRoom, reaches⟩
  · rintro ⟨json, data, room, parsed, ⟨janus, hasJanus⟩, ⟨tx, hasTx⟩, plugin, ⟨video, hasVideo⟩,
      hasRoom, reaches⟩
    exact ⟨json, parsed, janus, hasJanus, tx, hasTx, data, plugin, video, hasVideo, room, hasRoom,
      reaches⟩

end Lynks.Janus
