import Mathlib.Data.Rat.Floor
import Mathlib.Data.List.Forall2
import Lynks.JsonDump
import Lynks.Janus.Messages

/-!
# `list_participants`

A request names a room by any number, which is cast (`list_participants_request_room`). The
participants of the response are read in a loop that skips some entries and throws on others:
`readFeedIds_eq_ok` has what it returns, `listing_succeeds_iff` when the constructor lists the
publishers at all, and `listing_reply_publishers` that the reply to the client then shows them.
-/

namespace Lynks.Janus
set_option autoImplicit false

open Lib

variable (lib : Nlohmann)

/-! ## The room of a request -/

/-- The value under `room_id`, of a body that is an object with that key. -/
def requestedRoom? (body : String) : Option Json := (lib.parse? body).bind (Json.field? "room_id")

/-- `body.room` of a request to Janus. -/
def sentRoom? (message : Json) : Option Json :=
  (message.field? "body").bind (Json.field? "room")

variable {lib}

theorem toUInt64_toNat (i : Int64) :
    (i.toUInt64.toNat : Int) = i.toInt % (UInt64.size : Int) := by
  have value : i.toInt = (i.toUInt64.toNat : Int).bmod (UInt64.size) :=
    BitVec.toInt_eq_toNat_bmod _
  have small : i.toUInt64.toNat < UInt64.size := i.toUInt64.toNat_lt
  rw [value, Int.bmod_emod]
  exact (Int.emod_eq_of_lt (Int.natCast_nonneg _) (Int.ofNat_lt.2 small)).symm

/-- A double is truncated; of those above `-1` and below `2^64` every one has a result. -/
theorem castDouble_toNat {q : ℚ} (low : -1 < q) (high : q < (UInt64.size : ℚ)) :
    (lib.castDouble q).toNat = ⌊q⌋₊ := by
  have truncated : q.num.tdiv q.den = (⌊q⌋₊ : Int) := by
    by_cases sign : 0 ≤ q
    · rw [Int.tdiv_eq_ediv_of_nonneg (Rat.num_nonneg.2 sign), ← Rat.floor_def]
      exact (Int.natCast_floor_eq_floor sign).symm
    · have below : q < 0 := not_le.1 sign
      have negative : q.num < 0 := Rat.num_neg.2 below
      have above : -(q.den : Int) < q.num := by
        have den : (0 : ℚ) < q.den := Nat.cast_pos.2 q.den_pos
        rw [← Rat.num_div_den q, lt_div_iff₀ den, neg_one_mul] at low
        exact_mod_cast low
      have zero : (-q.num).tdiv q.den = 0 := Int.tdiv_eq_zero_of_lt (by omega) (by omega)
      rw [Nat.floor_of_nonpos below.le, ← neg_neg q.num, Int.neg_tdiv, zero]
      rfl
  have fits : ⌊q⌋₊ < UInt64.size := by
    have positive : 0 < UInt64.size := by decide
    exact (Nat.floor_lt' positive.ne').2 high
  have range : (0 : Int) ≤ ⌊q⌋₊ ∧ (⌊q⌋₊ : Int) < 2 ^ 64 := by
    have size : UInt64.size = 18446744073709551616 := rfl
    omega
  rw [Nlohmann.castDouble, truncated]
  simp only [range, and_self, if_true, Int.toNat_natCast]
  exact UInt64.toNat_ofNat_of_lt' fits

/-- Which texts the constructor accepts, and what it then keeps. -/
theorem ListParticipantsRequest.new_cases (body : String) :
    (∃ room r, requestedRoom? lib body = some room ∧ room.isNumber = true ∧
      new lib body = .ok r ∧ room.getUInt64 lib = .ok r.roomId) ∨
    ((∀ room, requestedRoom? lib body = some room → room.isNumber = false) ∧
      ∃ e, new lib body = .throws e) := by
  unfold requestedRoom? new Nlohmann.parse
  cases parsed : lib.parse? body with
  | none => exact Or.inr ⟨by simp, _, rfl⟩
  | some j =>
    cases j with
    | object fields =>
      simp only [Option.bind_some, Json.field?, Outcome.ok_bind, Json.subscript]
      cases found : fields.lookup "room_id" with
      | none => exact Or.inr ⟨by simp, .typeError 302, rfl⟩
      | some room =>
        rcases room.getUInt64_cases lib with ⟨number, n, read⟩ | ⟨other, read⟩
        · exact Or.inl ⟨room, ⟨"message", "test123", "listparticipants", n⟩, rfl, number,
            by simp [read], read⟩
        · refine Or.inr ⟨?_, .typeError 302, by simp [read]⟩
          intro room' same
          rw [← Option.some.inj same]
          exact other
    | null => exact Or.inr ⟨by simp [Json.field?], .typeError 302, rfl⟩
    | _ => exact Or.inr ⟨by simp [Json.field?], .typeError 305, rfl⟩

/-- How the room sent comes from the number given: the number itself where it is a room at all,
else modulo `2^64` or truncated, by the kind of the number. Nothing is said of a double whose
cast is undefined. -/
structure SentFor (room : Json) (sent : UInt64) : Prop where
  natural : ∀ k < UInt64.size, room.number? = some (k : ℚ) → sent.toNat = k
  negative : ∀ i, room = .integer i → (sent.toNat : Int) = i.toInt % (UInt64.size : Int)
  fraction : ∀ q, room = .float q → -1 < q → q < (UInt64.size : ℚ) → sent.toNat = ⌊q⌋₊

theorem sentFor_of_getUInt64 {room : Json} {sent : UInt64}
    (read : room.getUInt64 lib = .ok sent) : SentFor room sent := by
  cases room with
  | integer i =>
    obtain rfl : i.toUInt64 = sent := Outcome.ok.inj read
    refine ⟨fun k fits value => ?_, fun j same => ?_, fun _ same => (by cases same)⟩
    · have same : i.toInt = (k : Int) := by exact_mod_cast Option.some.inj value
      have cast := toUInt64_toNat i
      rw [same, Int.emod_eq_of_lt (Int.natCast_nonneg _) (Int.ofNat_lt.2 fits)] at cast
      exact Int.ofNat.inj cast
    · rw [← Json.integer.inj same]
      exact toUInt64_toNat i
  | unsigned n =>
    obtain rfl : n = sent := Outcome.ok.inj read
    refine ⟨fun k _ value => ?_, fun _ same => (by cases same), fun _ same => (by cases same)⟩
    exact_mod_cast Option.some.inj value
  | float q =>
    obtain rfl : lib.castDouble q = sent := Outcome.ok.inj read
    refine ⟨fun k fits value => ?_, fun _ same => (by cases same), fun q' same low high => ?_⟩
    · obtain rfl : q = k := Option.some.inj value
      have low : (-1 : ℚ) < k := lt_of_lt_of_le (by decide) (Nat.cast_nonneg k)
      have high : (k : ℚ) < (UInt64.size : ℚ) := by exact_mod_cast fits
      rw [castDouble_toNat low high, Nat.floor_natCast]
    · rw [← Json.float.inj same] at low high ⊢
      exact castDouble_toNat low high
  | _ => cases read

/-- **Main result.** A body is accepted exactly if it is an object with a number under
`room_id`, and that number decides the room that is sent. -/
theorem list_participants_request_room (lib : Nlohmann) (body : String) :
    ((∃ r, ListParticipantsRequest.new lib body = .ok r) ↔
      ∃ room, requestedRoom? lib body = some room ∧ room.isNumber = true) ∧
    ((¬ ∃ r, ListParticipantsRequest.new lib body = .ok r) →
      ∃ e, ListParticipantsRequest.new lib body = .throws e) ∧
    ∀ r, ListParticipantsRequest.new lib body = .ok r →
      ∃ room message, requestedRoom? lib body = some room ∧
        r.toJson lib = lib.dump message ∧ sentRoom? message = some (.unsigned r.roomId) ∧
        SentFor room r.roomId := by
  rcases @ListParticipantsRequest.new_cases lib body with
    ⟨room, r, found, number, made, read⟩ | ⟨other, e, thrown⟩
  · refine ⟨⟨fun _ => ⟨room, found, number⟩, fun _ => ⟨r, made⟩⟩, fun none => absurd ⟨r, made⟩ none,
      fun r' made' => ?_⟩
    obtain rfl := Outcome.ok.inj (made.symm.trans made')
    exact ⟨room, _, found, rfl, rfl, sentFor_of_getUInt64 read⟩
  · refine ⟨⟨fun ⟨r, made⟩ => ?_, fun ⟨room, found, number⟩ => ?_⟩, fun _ => ⟨e, thrown⟩,
      fun r made => ?_⟩
    · rw [thrown] at made
      cases made
    · rw [other room found] at number
      cases number
    · rw [thrown] at made
      cases made

/-- Room `-1` is accepted, and another one is asked for. -/
theorem negative_room_accepted :
    (∃ r, ListParticipantsRequest.new dumpLib "\x7b\"room_id\":-1\x7d" = .ok r ∧
      r.roomId.toNat = 18446744073709551615) ∧
    ¬ ((∃ r, ListParticipantsRequest.new dumpLib "\x7b\"room_id\":-1\x7d" = .ok r) ↔
      ∃ room, requestedRoom? dumpLib "\x7b\"room_id\":-1\x7d" = some room ∧
        ∃ k < UInt64.size, room.number? = some (k : ℚ)) := by
  have parsed : dumpLib.parse? "\x7b\"room_id\":-1\x7d" =
      some (.object [("room_id", .integer (-1))]) := rfl
  have made : ∃ r, ListParticipantsRequest.new dumpLib "\x7b\"room_id\":-1\x7d" = .ok r ∧
      r.roomId.toNat = 18446744073709551615 := by
    rw [ListParticipantsRequest.new, Nlohmann.parse, parsed]
    exact ⟨_, rfl, rfl⟩
  refine ⟨made, fun claimed => ?_⟩
  obtain ⟨r, accepted, -⟩ := made
  obtain ⟨room, found, k, -, value⟩ := claimed.1 ⟨r, accepted⟩
  obtain rfl : .integer (-1) = room := by
    rw [requestedRoom?, parsed] at found
    exact Option.some.inj found
  have negative : ((-1 : Int) : ℚ) = k := Option.some.inj value
  have same : (-1 : Int) = k := by exact_mod_cast negative
  omega

/-! ## The participants of a response -/

/-- Reading an `id` gives this number. -/
def ReadsAs (lib : Nlohmann) (id : Json) (n : UInt64) : Prop := id.getUInt64 lib = .ok n

/-- **What the loop over `participants` returns**: the ids of the publishers, in order. -/
theorem readFeedIds_eq_ok (ps : List Json) {ids : List UInt64} : readFeedIds lib ps = .ok ids ↔
    (∀ p ∈ ps, Readable p) ∧ List.Forall₂ (ReadsAs lib) (ps.filterMap publishedId?) ids := by
  induction ps generalizing ids with
  | nil => simp [readFeedIds, eq_comm]
  | cons p ps ih =>
    rcases readFeedIds_cons lib p ps with
      ⟨readable, unpublished, skips⟩ | ⟨readable, id, n, published, read, takes⟩ |
        ⟨unreadable, -, ends⟩ | ⟨unreadable, -, e, ends⟩
    · rw [skips, ih, List.filterMap_cons_none unpublished]
      simp [readable]
    · rw [takes, List.filterMap_cons_some published, List.forall₂_cons_left_iff]
      simp only [Outcome.bind_eq_ok, ih, List.forall_mem_cons, readable, true_and,
        Outcome.pure_eq, Outcome.ok.injEq]
      constructor
      · rintro ⟨rest, ⟨others, related⟩, rfl⟩
        exact ⟨others, n, rest, read, related, rfl⟩
      · rintro ⟨others, n', rest, read', related, rfl⟩
        obtain rfl := Outcome.ok.inj (read.symm.trans read')
        exact ⟨rest, ⟨others, related⟩, rfl⟩
    · simp [ends, unreadable]
    · simp [ends, unreadable]

/-! ## The constructor of a response -/

/-- `plugindata.data` of a message. -/
def pluginData? (json : Json) : Option Json :=
  (json.field? "plugindata").bind (Json.field? "data")

theorem field_of_subscript {j v : Json} {key : String} (read : j.subscript key = .ok v) :
    j.field? key = some v ∨ v = .null := by
  rcases j.subscript_cases key with ⟨w, same, found⟩ | ⟨null, -⟩ | ⟨e, thrown, -⟩
  · rw [same] at read
    exact Or.inl (Outcome.ok.inj read ▸ found)
  · rw [null] at read
    exact Or.inr (Outcome.ok.inj read).symm
  · rw [thrown] at read
    cases read

theorem subscript_of_field {j v : Json} {key : String} (found : j.field? key = some v) :
    j.subscript key = .ok v := by
  rcases j.subscript_cases key with ⟨w, same, here⟩ | ⟨-, missing⟩ | ⟨e, -, missing⟩
  · rw [found] at here
    exact Option.some.inj here ▸ same
  · rw [found] at missing
    cases missing
  · rw [found] at missing
    cases missing

/-- The object the constructor reads the room and the participants from. -/
theorem readPluginData_eq_ok {json data : Json} {key s : String}
    (object : data.stringField? key = some s) :
    readPluginData json = .ok data ↔ pluginData? json = some data := by
  unfold readPluginData pluginData?
  rw [Outcome.bind_eq_ok, Option.bind_eq_some_iff]
  constructor
  · rintro ⟨plugindata, first, second⟩
    have notNull : data ≠ .null := by
      rintro rfl
      cases object
    have inner := (field_of_subscript second).resolve_right notNull
    rcases field_of_subscript first with outer | rfl
    · exact ⟨plugindata, outer, inner⟩
    · cases inner
  · rintro ⟨plugindata, outer, inner⟩
    exact ⟨plugindata, subscript_of_field outer, subscript_of_field inner⟩

theorem readRoom_eq_ok {json data : Json} (plugin : readPluginData json = .ok data) {n : UInt64} :
    readRoom lib json = .ok n ↔ ∃ room, data.field? "room" = some room ∧ ReadsAs lib room n := by
  unfold readRoom
  rw [plugin, Outcome.ok_bind, Outcome.bind_eq_ok]
  constructor
  · rintro ⟨room, read, cast⟩
    rcases field_of_subscript read with found | rfl
    · exact ⟨room, found, cast⟩
    · cases cast
  · rintro ⟨room, found, cast⟩
    exact ⟨room, subscript_of_field found, cast⟩

/-- What a message needs, apart from its participants, to be read as a listing. -/
structure ListingOf (lib : Nlohmann) (text : String) (r : ListParticipantsResponse)
    (data : Json) : Prop where
  parsed : ∃ json, lib.parse? text = some json ∧ json.stringField? "janus" = some r.janus ∧
    json.stringField? "transaction" = some r.transaction ∧ pluginData? json = some data
  videoroom : data.stringField? "videoroom" = some r.videoroom
  room : ∃ room, data.field? "room" = some room ∧ ReadsAs lib room r.roomId
  whole : r.jsonOrg = text

/-- The constructor returns what it reads, if the loop over the participants does. -/
theorem ListParticipantsResponse.new_eq_ok {text : String} {r : ListParticipantsResponse} :
    new lib text = .ok r ↔ ∃ data, ListingOf lib text r data ∧
      readFeedIds lib (participantsOf data) = .ok r.feedIds := by
  unfold new
  simp only [Outcome.bind_eq_ok, parse_eq_ok, Json.readString_eq_ok, Outcome.pure_eq,
    Outcome.ok.injEq]
  constructor
  · rintro ⟨json, parsed, janus, hasJanus, tx, hasTx, data, plugin, video, hasVideo, room, hasRoom,
      ids, read, rfl⟩
    exact ⟨data, ⟨⟨json, parsed, hasJanus, hasTx, (readPluginData_eq_ok hasVideo).1 plugin⟩,
      hasVideo, (readRoom_eq_ok plugin).1 hasRoom, rfl⟩, read⟩
  · rintro ⟨data, ⟨⟨json, parsed, hasJanus, hasTx, plugin⟩, hasVideo, hasRoom, rfl⟩, read⟩
    have plugin' := (readPluginData_eq_ok hasVideo).2 plugin
    exact ⟨json, parsed, _, hasJanus, _, hasTx, data, plugin', _, hasVideo, _,
      (readRoom_eq_ok plugin').2 hasRoom, _, read, rfl⟩

/-- A response that is well formed but for the entries of `participants`. -/
def WellFormedBut (lib : Nlohmann) (text : String) (ps : List Json) : Prop :=
  ∃ r data, ListingOf lib text r data ∧ data.field? "participants" = some (.array ps)

/-- The constructor returns, with the ids of the publishers among the entries, in order. -/
def ListsPublishers (lib : Nlohmann) (text : String) (ps : List Json) : Prop :=
  ∃ r, ListParticipantsResponse.new lib text = .ok r ∧
    List.Forall₂ (ReadsAs lib) (ps.filterMap publishedId?) r.feedIds

theorem ListingOf.unique {text : String} {r r' : ListParticipantsResponse} {data data' : Json}
    (listing : ListingOf lib text r data) (listing' : ListingOf lib text r' data') :
    data = data' := by
  obtain ⟨json, parsed, -, -, plugin⟩ := listing.parsed
  obtain ⟨json', parsed', -, -, plugin'⟩ := listing'.parsed
  obtain rfl := Option.some.inj (parsed.symm.trans parsed')
  exact Option.some.inj (plugin.symm.trans plugin')

/-- Numbers can be read. -/
theorem readsAs_of_isNumber {ids : List Json} (numbers : ∀ id ∈ ids, id.isNumber = true) :
    ∃ ns, List.Forall₂ (ReadsAs lib) ids ns := by
  induction ids with
  | nil => exact ⟨[], List.Forall₂.nil⟩
  | cons id ids ih =>
    obtain ⟨ns, read⟩ := ih fun x mem => numbers x (List.mem_cons_of_mem _ mem)
    rcases id.getUInt64_cases lib with ⟨-, n, first⟩ | ⟨other, -⟩
    · exact ⟨n :: ns, List.Forall₂.cons first read⟩
    · rw [numbers id List.mem_cons_self] at other
      cases other

theorem isNumber_of_published {p id : Json} (readable : Readable p)
    (published : publishedId? p = some id) : id.isNumber = true := by
  obtain ⟨flag, given⟩ := publishedId_eq_some.1 published
  obtain ⟨publisher, found, numbers⟩ := readable (isObject_of_field flag)
  rw [flag] at found
  obtain rfl : true = publisher := Json.boolean.inj (Option.some.inj found)
  exact numbers rfl id given

/-- **Main result.** The publishers are listed exactly if each entry that is an object has a
boolean `publisher` and, where that is true, no `id` but a number. -/
theorem listing_succeeds_iff {text : String} {ps : List Json}
    (wellFormed : WellFormedBut lib text ps) :
    ListsPublishers lib text ps ↔ ∀ p ∈ ps, Readable p := by
  obtain ⟨r, data, listing, participants⟩ := wellFormed
  have entries : participantsOf data = ps := by
    rw [participantsOf, participants]
    rfl
  constructor
  · rintro ⟨r', made, -⟩
    obtain ⟨data', listing', read⟩ := ListParticipantsResponse.new_eq_ok.1 made
    rw [← listing.unique listing', entries] at read
    exact ((readFeedIds_eq_ok ps).1 read).1
  · intro readable
    have numbers : ∀ id ∈ ps.filterMap publishedId?, id.isNumber = true := by
      intro id mem
      obtain ⟨p, inside, published⟩ := List.mem_filterMap.1 mem
      exact isNumber_of_published (readable p inside) published
    obtain ⟨ids, related⟩ := @readsAs_of_isNumber lib _ numbers
    have read := (readFeedIds_eq_ok ps).2 ⟨readable, related⟩
    refine ⟨{ r with feedIds := ids }, ListParticipantsResponse.new_eq_ok.2 ⟨data, ?_, ?_⟩, related⟩
    · exact ⟨listing.parsed, listing.videoroom, listing.room, listing.whole⟩
    · rw [entries]
      exact read

/-- A listing with these entries. -/
def listing (participants : List Json) : Json :=
  .object [("janus", .string "success"),
    ("plugindata", .object [("data", .object [("participants", .array participants),
      ("room", .unsigned 1234), ("videoroom", .string "participants")]),
      ("plugin", .string "janus.plugin.videoroom")]),
    ("transaction", .string "test123")]

theorem listing_wellFormed {ps : List Json}
    (printable : JsonDump.printable (listing ps) = true) :
    WellFormedBut dumpLib (dumpLib.dump (listing ps)) ps := by
  have parsed := dumpLib_standard.parse_dump (listing ps) printable
  exact ⟨⟨_, "success", "test123", "participants", 1234, []⟩, _,
    ⟨⟨_, parsed, rfl, rfl, rfl⟩, rfl, ⟨_, rfl, rfl⟩, rfl⟩, rfl⟩

theorem listing_of_publisher :
    ListsPublishers dumpLib (dumpLib.dump (listing [.object [("id", .unsigned 7),
      ("publisher", .boolean true)]])) [.object [("id", .unsigned 7),
      ("publisher", .boolean true)]] := by
  apply (listing_succeeds_iff (listing_wellFormed (by decide))).2
  intro p mem _
  rw [List.mem_singleton.1 mem]
  exact ⟨true, rfl, fun _ id found => Option.some.inj found ▸ rfl⟩

/-- An entry without `publisher` is read through the const `operator[]` all the same. -/
theorem listing_without_publisher :
    WellFormedBut dumpLib (dumpLib.dump (listing [.object [("id", .unsigned 7)]]))
      [.object [("id", .unsigned 7)]] ∧
    ListParticipantsResponse.new dumpLib (dumpLib.dump (listing [.object [("id", .unsigned 7)]])) =
      .undefined := by
  have printable : JsonDump.printable (listing [.object [("id", .unsigned 7)]]) = true := by decide
  refine ⟨listing_wellFormed printable, ?_⟩
  rw [ListParticipantsResponse.new, Nlohmann.parse, dumpLib_standard.parse_dump _ printable]
  rfl

/-! ## The reply to the client -/

/-- An integer in `[0, 2^64)`, as rooms and participants are numbered. -/
def IsId (j : Json) : Prop := ∃ k < UInt64.size, j.number? = some (k : ℚ)

/-- The `id` of the participants that are publishers and have one, in order; none without an
array of participants. -/
def publisherIds (data : Json) : List Json :=
  match data.field? "participants" with
  | some (.array ps) => ps.filterMap publishedId?
  | _ => []

theorem publisherIds_eq (data : Json) :
    publisherIds data = (participantsOf data).filterMap publishedId? := by
  unfold publisherIds participantsOf
  split
  · rename_i ps found
    rw [found]
    rfl
  · rename_i other
    cases found : data.field? "participants" with
    | none => rfl
    | some v =>
      cases v with
      | array ps => exact absurd found (other ps)
      | _ => rfl

/-- An id is read as itself. -/
theorem number_of_readsAs {id : Json} {n : UInt64} (read : ReadsAs lib id n) (natural : IsId id) :
    (Json.unsigned n).number? = id.number? := by
  obtain ⟨k, fits, value⟩ := natural
  have same : n.toNat = k := (sentFor_of_getUInt64 read).natural k fits value
  rw [value, Json.number?, same]

theorem numbers_of_readsAs {ids : List Json} {ns : List UInt64}
    (read : List.Forall₂ (ReadsAs lib) ids ns) (natural : ∀ id ∈ ids, IsId id) :
    (ns.map Json.unsigned).map Json.number? = ids.map Json.number? := by
  induction read with
  | nil => rfl
  | cons first _ ih =>
    obtain ⟨here, others⟩ := List.forall_mem_cons.1 natural
    rw [List.map_cons, List.map_cons, List.map_cons, number_of_readsAs first here, ih others]

/-- The reply is a value that is parsed as it was built. -/
theorem listingReply_printable {r : ListParticipantsResponse} (utf8 : isUtf8 r.janus = true) :
    JsonDump.printable (.object [("action", .string r.janus),
      ("publishers", .array (r.feedIds.map .unsigned)),
      ("room_id", .unsigned r.roomId)]) = true := by
  have elements : ∀ ns : List UInt64,
      JsonDump.printableElements (ns.map .unsigned) = true := by
    intro ns
    induction ns with
    | nil => rfl
    | cons n ns ih => rw [List.map_cons, JsonDump.printableElements, JsonDump.printable, ih]; rfl
  have keys : isUtf8 "action" = true ∧ isUtf8 "publishers" = true ∧ isUtf8 "room_id" = true :=
    ⟨rfl, rfl, rfl⟩
  apply JsonDump.printable_object
  · change ["action", "publishers", "room_id"].Pairwise (· < ·)
    decide
  · simp [JsonDump.printable, JsonDump.printableFields, elements, keys, utf8]

/-- **Main result.** The reply shows the room of the response and the ids of its publishers, in
order. -/
theorem listing_reply_publishers (standard : lib.Standard) {text : String}
    {r : ListParticipantsResponse} (made : ListParticipantsResponse.new lib text = .ok r)
    (documented : ∀ json data, lib.parse? text = some json → pluginData? json = some data →
      (∀ room, data.field? "room" = some room → IsId room) ∧ ∀ id ∈ publisherIds data, IsId id) :
    ∃ json data room reply shown ids, lib.parse? text = some json ∧
      pluginData? json = some data ∧ data.field? "room" = some room ∧
      lib.parse? (r.toJson lib) = some reply ∧ reply.field? "room_id" = some shown ∧
      shown.number? = room.number? ∧ reply.field? "publishers" = some (.array ids) ∧
      ids.map Json.number? = (publisherIds data).map Json.number? := by
  obtain ⟨data, listing, read⟩ := ListParticipantsResponse.new_eq_ok.1 made
  obtain ⟨json, parsed, janus, -, plugin⟩ := listing.parsed
  obtain ⟨room, found, cast⟩ := listing.room
  obtain ⟨rooms, naturals⟩ := documented json data parsed plugin
  have related := ((readFeedIds_eq_ok _).1 read).2
  rw [← publisherIds_eq] at related
  have reparsed := standard.parse_dump _
    (listingReply_printable (standard.utf8 text json "janus" r.janus parsed janus))
  exact ⟨json, data, room, _, .unsigned r.roomId, r.feedIds.map .unsigned, parsed, plugin, found,
    reparsed, rfl, number_of_readsAs cast (rooms room found), rfl,
    numbers_of_readsAs related naturals⟩

/-- A publisher between one who is none and one without `id`. -/
def someParticipants : List Json :=
  [.object [("id", .unsigned 5), ("publisher", .boolean false)],
    .object [("id", .unsigned 7), ("publisher", .boolean true)],
    .object [("publisher", .boolean true)]]

theorem listing_reply_publishers_seven : ∃ r reply ids,
    ListParticipantsResponse.new dumpLib (dumpLib.dump (listing someParticipants)) = .ok r ∧
      dumpLib.parse? (r.toJson dumpLib) = some reply ∧
      reply.field? "publishers" = some (.array ids) ∧ ids.map Json.number? = [some 7] := by
  have printable : JsonDump.printable (listing someParticipants) = true := by decide
  have parsed := dumpLib_standard.parse_dump _ printable
  have made : ∃ r, ListParticipantsResponse.new dumpLib
      (dumpLib.dump (listing someParticipants)) = .ok r := by
    rw [ListParticipantsResponse.new, Nlohmann.parse, parsed]
    exact ⟨_, rfl⟩
  obtain ⟨r, made⟩ := made
  have shape : ∀ json data, dumpLib.parse? (dumpLib.dump (listing someParticipants)) = some json →
      pluginData? json = some data → publisherIds data = [.unsigned 7] ∧
        data.field? "room" = some (.unsigned 1234) := by
    intro json data read plugin
    obtain rfl := Option.some.inj (parsed.symm.trans read)
    obtain rfl := Option.some.inj plugin
    exact ⟨rfl, rfl⟩
  obtain ⟨json, data, -, reply, -, ids, read, plugin, -, reparsed, -, -, shown, same⟩ :=
    listing_reply_publishers dumpLib_standard made (by
      intro json data read plugin
      obtain ⟨published, roomed⟩ := shape json data read plugin
      rw [published, roomed]
      refine ⟨fun room found => ?_, fun id mem => ?_⟩
      · rw [← Option.some.inj found]
        exact ⟨1234, by decide, rfl⟩
      · rw [List.mem_singleton.1 mem]
        exact ⟨7, by decide, rfl⟩)
  rw [(shape json data read plugin).1] at same
  exact ⟨r, reply, ids, made, reparsed, shown, same⟩

end Lynks.Janus
