import FleetTelemetry.Snapshot.Payload
import FleetTelemetry.Text.Numeral

/-!
# Fetching snapshots

A node is asked for its snapshot through a client and answers, or does not. Only an answer whose
status is no error is looked at further; its body must then be complete and a payload. What goes
wrong at the client is told as an error of the fetch.
-/

namespace FleetTelemetry

open Text

inductive BodyError where
  | incomplete
  | payload (cause : PayloadError)

def BodyError.message : BodyError → String
  | .incomplete => "error decoding response body"
  | .payload cause => cause.message

inductive FetchError where
  | transport (reason : String)
  | status (code : Nat)
  | body (cause : BodyError)

def FetchError.message : FetchError → String
  | .transport reason => "transport error: " ++ reason
  | .status code => "endpoint returned status " ++ decimalString code
  | .body cause => "failed to decode snapshot: " ++ cause.message

abbrev Fetched := Except FetchError Snapshot

def SchemaMode.fetched (mode : SchemaMode) (body : Json.Bytes) : Fetched :=
  match Snapshot.decode mode body with
  | .ok s => .ok s
  | .error cause => .error (.body (.payload cause))

inductive ClientError where
  | request (reason : String)
  | status (code : Nat)
  | incomplete
  deriving DecidableEq, Repr

def ClientError.toFetchError : ClientError → FetchError
  | .request reason => .transport reason
  | .status code => .status code
  | .incomplete => .body .incomplete

namespace Http

/-- What a node answers, when the client has followed where earlier answers sent it. -/
structure Response where
  status : Nat
  body : Json.Bytes
  /-- Bytes that were announced and did not come. -/
  missing : Nat := 0

def isErrorStatus (code : Nat) : Bool :=
  400 ≤ code && code ≤ 599

def isBodyless (code : Nat) : Bool :=
  code = 101 || code = 204 || code = 304

/-- The client hands on answers of these statuses only. An interim answer is passed over, as the
answer itself is still to come, unless it changes the protocol. -/
def isHandedOn (code : Nat) : Bool :=
  code = 101 || 200 ≤ code && code ≤ 999

def Response.handedOn (response : Response) : Except ClientError Response :=
  if isHandedOn response.status then .ok response else .error (.request "connection closed")

def Response.withoutError (response : Response) : Except ClientError Response :=
  if isErrorStatus response.status then .error (.status response.status) else .ok response

def Response.received (response : Response) : Json.Bytes :=
  if isBodyless response.status then [] else response.body

def Response.content (response : Response) : Except ClientError Json.Bytes :=
  if isBodyless response.status = false ∧ response.missing ≠ 0 then .error .incomplete
  else .ok response.received

/-- The outcome of a fetch for which the client brought an answer or an error. -/
def fetch (mode : SchemaMode) (answer : Except ClientError Response) : Fetched := do
  let response ← answer.mapError ClientError.toFetchError
  let accepted ← response.withoutError.mapError ClientError.toFetchError
  let body ← accepted.content.mapError ClientError.toFetchError
  mode.fetched body

def Response.fetched (mode : SchemaMode) (response : Response) : Fetched :=
  fetch mode response.handedOn

def description (url : String) : String := "http: " ++ url

def refused : Fetched := .error (.transport "connection refused")

end Http

end FleetTelemetry
