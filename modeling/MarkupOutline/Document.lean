import MarkupOutline.Field

/-!
# Documents

A document is a text with the name it is known under, the language it is declared to be in and a
version that its owner counts up.
-/

namespace MarkupOutline

/-- A text and what its owner says about it. -/
structure Document where
  uri : String
  languageId : Option String
  version : Int
  text : String
deriving DecidableEq, Repr

/-- Reads a document from the fields of an object; only the text has to be there. -/
def Document.read (object : Json) : Field.Checked Document :=
  Document.mk <$>
    Field.optional Field.string "untitled" "uri" (object.field? "uri") <*>
    Field.optional (Field.nullable Field.string) none "language_id"
      (object.field? "language_id") <*>
    Field.optional Field.integer 0 "version" (object.field? "version") <*>
    Field.required Field.string "text" (object.field? "text")

end MarkupOutline
