import MarkupOutline.Document
import MarkupOutline.Text.Case
import MarkupOutline.Text.Search

/-!
# Detectors

A detector tells which documents are markup at all. Reading never asks; whoever holds a document
does.
-/

namespace MarkupOutline

/-- A test on documents. -/
inductive Detector where
  /-- Takes every document. -/
  | all
  /-- Takes a document whose name ends in one of the endings, whatever the case of the letters. -/
  | extension (endings : List String)
  /-- Takes a document declared to be in one of the languages. -/
  | language (ids : List (Option String))
  /-- Takes a document in whose text the marker stands. -/
  | content (marker : String)
  /-- Takes a document that one of the detectors takes. -/
  | any (detectors : List Detector)
  /-- Takes a document that passes a test of its host. -/
  | host (test : Document → Bool)

namespace Detector

/-- Whether a text ends in another, both written in small letters. -/
def endsInLower (cs ending : List Char) : Bool :=
  Text.endsIn (Text.lower ending) (Text.lower cs)

mutual

/-- Whether a detector takes a document. -/
def accepts (d : Document) : Detector → Bool
  | all => true
  | extension endings => endings.any fun ending => endsInLower d.uri.toList ending.toList
  | language ids => ids.contains d.languageId
  | content marker => Text.occursIn marker.toList d.text.toList
  | any detectors => anyAccepts d detectors
  | host test => test d

/-- Whether one of several detectors takes a document. -/
def anyAccepts (d : Document) : List Detector → Bool
  | [] => false
  | detector :: rest => accepts d detector || anyAccepts d rest

end

/-- Takes a document that looks like markup: by its ending, by its language or by the namespace
that it declares. -/
def markup : Detector :=
  any [extension [".axaml"], language [some "axaml"],
    content "xmlns=\"https://github.com/avaloniaui\""]

end Detector

end MarkupOutline
