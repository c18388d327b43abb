import MarkupOutline.Document

/-!
# Requests

A request to the service brings a document and asks one question about it. Its fields are read in a
fixed order, and all that do not fit are reported together.
-/

namespace MarkupOutline.Service

/-- The questions that the service takes. -/
inductive Endpoint where
  | outline
  | listing
  | elementAt
deriving DecidableEq, Repr

/-- A question with what it needs to know. -/
inductive Query where
  | outline (lineNumbers : Bool)
  | listing
  | elementAt (p : Position)
deriving DecidableEq, Repr

/-- What was sent of a document, whether to test it before it is read, and a question about it. -/
structure Request where
  text : Sent
  uri : Sent
  languageId : Option Sent
  version : Int
  detect : Bool
  query : Query
deriving DecidableEq, Repr

/-- The document that was sent. For a surrogate in its name stands U+FFFD, as records show it; neither
is part of an ending or of a language, so that detection does not tell them apart. -/
def Request.document (r : Request) : Document :=
  ⟨r.uri.shown, r.languageId.map Sent.shown, r.version, r.text.shown⟩

/-- Reads what a question needs to know. -/
def Query.read (object : Json) : Endpoint → Field.Checked Query
  | .outline =>
    Query.outline <$>
      Field.optional Field.boolean false "show_line_numbers" (object.field? "show_line_numbers")
  | .listing => pure .listing
  | .elementAt =>
    (fun line column => .elementAt ⟨line, column⟩) <$>
      Field.required Field.natural "line" (object.field? "line") <*>
      Field.required Field.natural "column" (object.field? "column")

/-- Reads a request from the fields of an object. -/
def Request.readFields (endpoint : Endpoint) (object : Json) : Field.Checked Request :=
  (fun text uri languageId version detect query =>
      ⟨text, uri, languageId, version, detect, query⟩) <$>
    Field.required Field.sent "text" (object.field? "text") <*>
    Field.optional Field.uri (.text "untitled.axaml") "uri" (object.field? "uri") <*>
    Field.optional (Field.nullable Field.sent) none "language_id" (object.field? "language_id") <*>
    Field.optional Field.natural 0 "version" (object.field? "version") <*>
    Field.optional Field.boolean false "detect" (object.field? "detect") <*>
    Query.read object endpoint

/-- Reads a request from what was sent, if anything was. -/
def Request.read (endpoint : Endpoint) :
    Option Json → Except (List Field.Problem) Request
  | some (.object fields) => (Request.readFields endpoint (.object fields)).result
  | some _ => .error [⟨[], .notObject⟩]
  | none => .error [⟨[], .missing⟩]

end MarkupOutline.Service
