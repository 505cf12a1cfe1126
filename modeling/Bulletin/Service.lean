import Bulletin.Http.Coding
import Bulletin.Http.Form
import Bulletin.Service.DataRequest
import Bulletin.View.Written

/-!
# The service

Views are served over HTTP. Whoever asks is named by a header that the server in front of this one
sets. Every answer but that of `/health` has the same envelope, whose `ok` says whether the status
is 200:

    GET  /api/user             who is asking
    GET  /api/periods          the periods the viewer sees
    GET  /api/report?period=N  the sections of one period
    POST /api/data             the data of several periods
    GET  /health               whether the store is warm

Answering reads the store and never changes it.
-/

namespace Bulletin

open Http (Request Response)
open Json (Value)

/-- How the service is set up. -/
structure Service where
  admins : List String
  /-- The header that names the viewer, in lower case. -/
  userHeader : String
  /-- The most bytes that the body of a request may have. -/
  maxBody : Nat
  deriving DecidableEq, Repr, Inhabited

namespace Service

def version : String := "0.1.0"

/-- Sets a service up, if its header can be one. -/
def make? (admins : List String) (userHeader : String) (maxBody : Nat) : Option Service :=
  (Http.headerName? userHeader).map fun name => ⟨admins, name, maxBody⟩

/-- Why a service cannot be set up. -/
def invalidHeader (userHeader : String) : String := "Invalid user header: " ++ userHeader

/-- Who sent a request. -/
def viewer (s : Service) (r : Request) : Viewer :=
  let identity := ((r.headersNamed s.userHeader).head?.bind Http.Header.text?).getD ""
  Viewer.ofIdentity s.admins identity

/-! ## Answers -/

def valueResponse (status : Nat) (v : Value) : Response :=
  ⟨status, some "application/json", none, none, v.compact⟩

def envelope (status : Nat) (note : String) (payload : Value) : Response :=
  valueResponse status <|
    .object [("ok", .bool (status == 200)), ("msg", .string note), ("payload", payload)]

/-- What was asked for. -/
def ok (payload : Value) : Response := envelope 200 "" payload

/-- Why there is nothing to be had. -/
inductive Refusal where
  | badRequest (reason : String)
  | notFound (reason : String)
  | tooLarge
  deriving DecidableEq, Repr, Inhabited

namespace Refusal

def status : Refusal → Nat
  | badRequest _ => 400
  | notFound _ => 404
  | tooLarge => 413

def message : Refusal → String
  | badRequest reason => reason
  | notFound reason => reason
  | tooLarge => "Request body too large"

def response (r : Refusal) : Response := envelope r.status r.message .null

end Refusal

def answer : Except Refusal Response → Response
  | .ok r => r
  | .error r => r.response

/-- Who is asking. -/
def user (v : Viewer) : Response :=
  ok (.object [("user", .string v.user), ("admin", .bool v.isAdmin)])

def periods (store : Store) (v : Viewer) : Response := ok (writePeriods (store.periods v))

def periodParameter (query : String) : Except Refusal Period :=
  match Http.lastValue? "period" (Http.fields query) with
  | none => .error (.badRequest "Missing param period")
  | some value =>
    match (Decimal.intOfChars? (Text.trim Text.isBlank value.toList)).bind Decimal.fit? with
    | some period => .ok period
    | none => .error (.badRequest "Nonintegral param period")

/-- The sections of one period. -/
def report (store : Store) (v : Viewer) (query : String) : Except Refusal Response := do
  let period ← periodParameter query
  match store.report period v with
  | .ok r => return ok r.written
  | .error e => throw (.notFound e.message)

/-- The body of a request, if it is not too long. -/
def bodyOf (s : Service) (r : Request) : Except Refusal (List UInt8) :=
  match r.body with
  | .bytes bytes => if s.maxBody < bytes.length then .error .tooLarge else .ok bytes
  | .broken reason => .error (.badRequest ("Failed to buffer the request body: " ++ reason))

def data (s : Service) (store : Store) (r : Request) : Except Refusal Response := do
  let body ← s.bodyOf r
  match DataRequest.ofBytes body with
  | .error e => throw (.badRequest ("Malformed request body: " ++ e.message))
  | .ok wanted =>
    let d := store.raw wanted.periods (s.viewer r)
    if d.periods.isEmpty then throw (.notFound d.note)
    return envelope 200 d.note d.written

/-- How the server fares. -/
def health (store : Store) : Response :=
  valueResponse 200 <|
    .object [("status", .string "ok"), ("version", .string version),
      ("phase", .string store.phase.name)]

/-! ## Routes -/

/-- What can be asked for. -/
inductive Route where
  | user
  | periods
  | report
  | data
  | health
  deriving DecidableEq, Repr, Inhabited

namespace Route

def ofPath? (path : String) : Option Route :=
  if path = "/api/user" then some user
  else if path = "/api/periods" then some periods
  else if path = "/api/report" then some report
  else if path = "/api/data" then some data
  else if path = "/health" then some health
  else none

def methods : Route → List String
  | data => ["POST"]
  | user | periods | report | health => ["GET", "HEAD"]

end Route

def answerTo (s : Service) (store : Store) (r : Request) : Route → Response
  | .user => user (s.viewer r)
  | .periods => periods store (s.viewer r)
  | .report => answer (report store (s.viewer r) r.target.query)
  | .data => answer (s.data store r)
  | .health => health store

def respond (s : Service) (store : Store) (r : Request) : Response :=
  match Route.ofPath? r.target.path with
  | none => Response.empty 404
  | some route =>
    if route.methods.contains r.method then
      let response := (Http.Coding.ofRequest r).apply (s.answerTo store r route)
      if r.method = "HEAD" then { response with body := "" } else response
    else { Response.empty 405 with allow := some (",".intercalate route.methods) }

end Service

end Bulletin
