import MarkupOutline.Service.Response

/-!
# Outcomes

What becomes of whatever is sent to the service. A response is sent, once its body is encoded, or
else a string could not be encoded and nothing of the service is left to say so: the text of a
request is encoded to be measured, and its name to be sent back.
-/

namespace MarkupOutline.Service

/-- What becomes of a request. -/
inductive Outcome where
  /-- A response is sent. -/
  | answered (a : Response)
  /-- Nothing catches the failure to encode a string. All that is sent is the status 500, with a
  line of plain text. -/
  | brokenOff (e : Unencodable) (records : List Log.Record)

/-- The status that is sent. -/
def Outcome.status : Outcome → Nat
  | answered a => a.status
  | brokenOff _ _ => 500

/-- The JSON body that is sent, if there is one. -/
def Outcome.body? : Outcome → Option Json
  | answered a => some a.body
  | brokenOff _ _ => none

/-- Sends a response. -/
def Response.send (a : Response) : Outcome :=
  match a.body.encodeFrom 0 with
  | .ok _ => .answered a
  | .error e => .brokenOff e a.records

/-- Answers a request whose fields fit. -/
def Request.handle (maxKb : Int) (reader : Markup.Reader) (r : Request) : Outcome :=
  match r.text with
  | .text _ => (answer maxKb reader r).send
  | .garbled s => .brokenOff (s.unencodable s.before.length) []

/-- A problem as the service reports it, without the value that it was found in. -/
def problemBody (p : Field.Problem) : Json :=
  .array [.string p.fault.code, .array (("body" :: p.path).map .string),
    .string p.fault.message]

/-- Answers what was sent to an endpoint. -/
def respond (maxKb : Int) (reader : Markup.Reader) (endpoint : Endpoint) (body : Option Json) :
    Outcome :=
  match Request.read endpoint body with
  | .ok r => r.handle maxKb reader
  | .error problems => .answered ⟨422, .array (problems.map problemBody), []⟩

/-- The answer to the question whether the service is there. -/
def health : Outcome :=
  Response.send ⟨200, .object [("status", .string "ok")], []⟩

end MarkupOutline.Service
