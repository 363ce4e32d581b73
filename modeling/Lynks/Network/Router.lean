import Lynks.Network.Handler

/-!
# `router`

The dispatch on the path, the three endpoints, and the replies. Two endpoints catch every
exception and reply 400; `login_user` does not.
-/

namespace Lynks
set_option autoImplicit false

open Lib Janus

/-- A request, as far as the router reads it. -/
structure HttpRequest where
  target : String
  version : Nat
  /-- the `Authorization` field -/
  authorization : Option String
  body : String
  deriving DecidableEq, Repr

inductive Status where
  | ok
  | badRequest
  | notFound
  deriving DecidableEq, Repr

structure HttpResponse where
  version : Nat
  result : Status
  server : String
  contentType : String
  body : String
  deriving DecidableEq, Repr

/-- `request.at(http::field::authorization)`. -/
def HttpRequest.atAuthorization (request : HttpRequest) : Outcome Exception String :=
  match request.authorization with
  | some token => .ok token
  | none => .throws .outOfRange

namespace Router

/-- `router::succesful_request`. -/
def succesfulRequest (request : HttpRequest) (body : String) : HttpResponse :=
  { version := request.version, result := .ok, server := "My HTTP Server"
    contentType := "application/json", body }

/-- `router::not_found`. -/
def notFound (request : HttpRequest) : HttpResponse :=
  { version := request.version, result := .notFound, server := "My HTTP Server"
    contentType := "text/plain", body := "404 not found" }

/-- `router::bad_request`. -/
def badRequest (request : HttpRequest) : HttpResponse :=
  { version := request.version, result := .badRequest, server := "My HTTP Server"
    contentType := "text/plain", body := "400 bad request" }

/-- The reply to what the service returned. -/
def reply (request : HttpRequest) : Option String → HttpResponse
  | some result => succesfulRequest request result
  | none => badRequest request

variable (lib : Nlohmann) (sha : Sha256) (host : String)

/-- `router::login_user`. -/
def loginUser (request : HttpRequest) : Handler HttpResponse := do
  let result ← logInUser lib sha request.body
  pure (reply request result)

/-- What `create_meeting` and `list_participants` share: the token of the `Authorization` field
goes to the service, and every exception ends in 400. -/
def withToken (request : HttpRequest) (service : String → Handler (Option String)) :
    Handler HttpResponse :=
  Prog.catchAll (fun _ => pure (badRequest request)) do
    let token ← Handler.lift request.atAuthorization
    let result ← service token
    pure (reply request result)

/-- `router::create_meeting`. -/
def createMeeting (request : HttpRequest) : Handler HttpResponse :=
  withToken request fun token => Lynks.createMeeting lib host token

/-- `router::list_participants`. -/
def listParticipants (request : HttpRequest) : Handler HttpResponse :=
  withToken request fun token => Lynks.listParticipants lib host token request.body

/-- `router::route_request`. -/
def routeRequest (request : HttpRequest) : Handler HttpResponse :=
  if request.target = "/login" then loginUser lib sha request
  else if request.target = "/create" then createMeeting lib host request
  else if request.target = "/list_participants" then listParticipants lib host request
  else pure (notFound request)

/-- `router::handle_request`. -/
def handleRequest (request : HttpRequest) : Handler HttpResponse :=
  routeRequest lib sha host request

end Router

end Lynks
