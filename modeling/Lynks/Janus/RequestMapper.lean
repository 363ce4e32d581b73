import Lynks.Json

/-!
# `request_mapper`

The HTTP requests sent to Janus, built from a request type, a body and the path of the
session. A POST without a body throws.
-/

namespace Lynks.Janus
set_option autoImplicit false

open Lib

inductive RequestType where
  | createSession
  | activateVidroomPlugin
  | createRoom
  | getInfo
  | longPollEvents
  | listMeetingParticipants
  deriving DecidableEq, Repr

inductive Verb where
  | get
  | post
  deriving DecidableEq, Repr

/-- A request to Janus, with the header fields the mapper sets. -/
structure JanusRequest where
  type : RequestType
  method : Verb
  target : String
  version : Nat
  host : String
  userAgent : String
  accept : String
  contentType : Option String
  connection : String
  body : String
  deriving DecidableEq, Repr

namespace RequestMapper

/-- The fields of a POST request. -/
def postRequest (type : RequestType) (body host path : String) : JanusRequest :=
  { type, method := .post, target := path, version := 11, host
    userAgent := "lynks_janus/1.0", accept := "application/json"
    contentType := some "application/json", connection := "close", body }

/-- `request_mapper::set_up_standard_post_request`. -/
def setUpStandardPostRequest (type : RequestType) (body : Option String) (host path : String) :
    Outcome Exception JanusRequest :=
  match body with
  | none => .throws (.invalidArgument "[JANUS] failed create session: no body passed as argument")
  | some body => .ok (postRequest type body host path)

/-- The two GET requests, which differ in the `Connection` field. -/
def setUpGetRequest (type : RequestType) (host path connection : String) : JanusRequest :=
  { type, method := .get, target := path, version := 11, host
    userAgent := "lynks_janus/1.0", accept := "application/json"
    contentType := none, connection, body := "" }

/-- `request_mapper::get_request`. Every type is in the map, so there always is a request. -/
def getRequest (type : RequestType) (body : Option String) (host path : String) :
    Outcome Exception JanusRequest :=
  match type with
  | .createSession => setUpStandardPostRequest type body host path
  | .activateVidroomPlugin => setUpStandardPostRequest type body host path
  | .createRoom => setUpStandardPostRequest type body host path
  | .listMeetingParticipants => setUpStandardPostRequest type body host path
  | .getInfo => .ok (setUpGetRequest type host path "close")
  | .longPollEvents => .ok (setUpGetRequest type host path "keep-alive")

/-- A request with a body is built. -/
theorem getRequest_some (type : RequestType) (body host path : String) :
    ∃ request, getRequest type (some body) host path = .ok request := by
  cases type <;> exact ⟨_, rfl⟩

end RequestMapper

end Lynks.Janus
