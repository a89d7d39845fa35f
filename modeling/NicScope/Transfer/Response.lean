/-
Responses. A channel answers a request, a header and words, with a response or
an error. A response may say itself that it failed; nothing is read from one
that does.
-/

import NicScope.Error.Basic
import NicScope.Transfer.Dialogue
import NicScope.Wire.Request

namespace NicScope

/-- What the device delivered. -/
structure Response where
  status : Int32
  version : UInt32
  words : List UInt32
  deriving DecidableEq, Repr

namespace Response

/-- The data of the response as bytes. -/
def bytes (response : Response) : Bytes :=
  Bytes.ofWords response.words

/-- Refuses a response that says that it failed. -/
def check (response : Response) : Except Error Response :=
  if response.status = 0 then .ok response else .error (.status response.status)

/-- Refuses also a response of another version than `version`. -/
def checkVersion (version : UInt32) (response : Response) : Except Error Response := do
  let checked ← response.check
  if checked.version = version then .ok checked
  else .error (.versionMismatch version checked.version)

end Response

/-- What goes to the device: a header and the words behind it. -/
structure Query where
  header : Header
  words : List UInt32
  deriving DecidableEq, Repr

/-- What comes back for a query. -/
abbrev Reply := Except Error Response

/-- A dialogue with the device that may fail. -/
abbrev Exchange := ExceptT Error (Dialogue Query Reply)

/-- Lays out the fields of a request, sends them behind `header` and checks the
response. -/
def queryFields (header : Header) (fields : List Field) : Dialogue Query Reply Reply :=
  match Request.ofFields fields with
  | .error cause => .done (.error (.wire cause))
  | .ok words => .ask ⟨header, words⟩ fun reply => .done (reply.bind Response.check)

/-- Sends a request behind `header` and checks the response. -/
def query {ρ : Type} [Layout ρ] (header : Header) (request : ρ) : Dialogue Query Reply Reply :=
  queryFields header (Layout.fields request)

end NicScope
