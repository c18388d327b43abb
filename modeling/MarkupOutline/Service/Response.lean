import MarkupOutline.Encoding
import MarkupOutline.Rounding
import MarkupOutline.Service.Request
import MarkupOutline.Session

/-!
# Responses

The service responds to a request whose fields fit with a status, a JSON body and log records.

* 400: the document is larger than the limit;
* 500: the document could not be read, or the answer has too many levels to be written;
* 200: the answer.
-/

namespace MarkupOutline.Service

/-- A status, a body and the log records. -/
structure Response where
  status : Nat
  body : Json
  records : List Log.Record

/-! ## Size -/

/-- Whether a text is larger than a number of kilobytes. -/
def isTooLarge (maxKb : Int) (text : String) : Bool :=
  1024 * maxKb < text.utf8ByteSize

/-- The wording of a document that is too large. -/
def sizeMessage (maxKb : Int) (text : String) : String :=
  "Document is " ++ toString (roundHalfEven text.utf8ByteSize 1024) ++ " KB, limit is " ++
    toString maxKb ++ " KB"

/-! ## Records and failures -/

/-- The source of the records of the service. -/
def source : String := "outline_server.outline_processor"

/-- The name of a question in records. -/
def Query.name : Query → String
  | outline _ => "outline"
  | listing => "symbols"
  | elementAt _ => "element-at"

/-- The body of every answer that failed. -/
def errorBody (message : String) : Json :=
  .object [("error", .string message)]

/-- The record of an operation that failed. -/
def failureRecord (uri operation message : String) : Log.Record :=
  ⟨.error, source, "Outline request failed",
    [("error", .text message), ("operation", .text operation), ("uri", .text uri)]⟩

/-- The answer to a document that is too large. -/
def tooLarge (maxKb : Int) (r : Request) : Response :=
  let message := sizeMessage maxKb r.document.text
  ⟨400, errorBody message,
    [⟨.warning, source, "Rejected " ++ r.query.name ++ " request",
      [("error", .text message), ("uri", .text r.document.uri)]⟩]⟩

/-- The answer of an operation that failed after the given records. -/
def failure (uri operation message : String) (records : List Log.Record) : Response :=
  ⟨500, errorBody message, records ++ [failureRecord uri operation message]⟩

/-- The answer with the given body, or the failure to write it. -/
def written (uri : String) (records : List Log.Record) : Option Json → Response
  | some body => ⟨200, body, records⟩
  | none => failure uri "serialize" ("Error serializing result: " ++ Encoding.tooDeep) records

/-! ## Answers -/

/-- The most levels of an element that the service writes. -/
def maxElementLevels : Nat := 253

/-- The session that answers a request. -/
def sessionFor (r : Request) : Session :=
  let lineNumbers := match r.query with
    | .outline on => on
    | _ => false
  .new (if r.detect then .markup else .all) (some lineNumbers) (some true) none false

/-- Goes on with a reply unless it brought a message, which is then the failure of the request. -/
def Request.orFail {α : Type} (r : Request) (reply : Reply α) (go : α → Response) : Response :=
  match reply.messages with
  | message :: _ => failure r.document.uri r.query.name message reply.records
  | [] => go reply.value

/-- Answers with the outline and the number of its elements. -/
def answerOutline (reader : Markup.Reader) (r : Request) : Response :=
  let reply := (sessionFor r).outline reader false r.document
  r.orFail reply fun outline =>
    -- the elements are counted on the forest that the session remembers
    let counted := reply.session.forest reader r.document
    let elements := if outline.isEmpty then 0 else Forest.count counted.value
    let records := if outline.isEmpty then [] else counted.records
    let record : Log.Record :=
      ⟨.info, source, "Outline generated",
        [("elements", .number elements), ("roots", .number outline.length),
         ("uri", .text r.document.uri)]⟩
    written r.document.uri (reply.records ++ records ++ [record])
      ((Encoding.outline? outline).map fun symbols =>
        .object [("uri", .ofSent r.uri), ("symbols", symbols),
          ("element_count", .ofNat elements)])

/-- Answers with the listing. -/
def answerListing (reader : Markup.Reader) (r : Request) : Response :=
  let reply := (sessionFor r).listing reader r.document
  r.orFail reply fun entries =>
    ⟨200, .object [("uri", .ofSent r.uri), ("symbols", Encoding.listing entries)],
      reply.records⟩

/-- Answers with the innermost element under a position, if there is one. -/
def answerElement (reader : Markup.Reader) (r : Request) (p : Position) : Response :=
  let reply := (sessionFor r).elementAt reader r.document p
  r.orFail reply fun
    | none =>
      ⟨200, .object [("uri", .ofSent r.uri), ("element", .null), ("description", .null)],
        reply.records⟩
    | some t =>
      written r.document.uri reply.records
        ((Encoding.element? maxElementLevels t).map fun element =>
          .object [("uri", .ofSent r.uri), ("element", element),
            ("description", .string (Element.describe t))])

/-- Answers a request whose fields fit. -/
def answer (maxKb : Int) (reader : Markup.Reader) (r : Request) : Response :=
  if isTooLarge maxKb r.document.text then tooLarge maxKb r
  else match r.query with
    | .outline _ => answerOutline reader r
    | .listing => answerListing reader r
    | .elementAt p => answerElement reader r p

end MarkupOutline.Service
