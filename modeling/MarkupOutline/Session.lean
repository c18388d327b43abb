import MarkupOutline.Cache
import MarkupOutline.Detector
import MarkupOutline.Listing
import MarkupOutline.Lookup
import MarkupOutline.Settings

/-!
# Sessions

A session answers questions about documents. It asks its detector before it reads, keeps the last
forest in its cache, and never fails: a document that cannot be read gives the empty answer, a
message for the user and a log record.
-/

namespace MarkupOutline

/-- The settings and the memory of a session. `logsMessages` tells whether its messages go to the
log for want of another receiver. -/
structure Session where
  detector : Detector
  lineNumbers : Bool
  useCache : Bool
  strict : Bool
  logsMessages : Bool
  cache : Cache String

/-- An answer, the session after it, the messages for the user and the log records. -/
structure Reply (α : Type) where
  value : α
  session : Session
  messages : List String
  records : List Log.Record

namespace Session

/-- A session with the given settings, or else the default ones. -/
def new (detector : Detector) (lineNumbers useCache strict : Option Bool) (logsMessages : Bool) :
    Session where
  detector := detector
  lineNumbers := lineNumbers.getD Settings.Core.default.lineNumbers
  useCache := useCache.getD Settings.Core.default.cacheEnabled
  strict := strict.getD Settings.Core.default.strict
  logsMessages := logsMessages
  cache := .empty

/-! ## Settings -/

/-- Switches line numbers on or off. A change empties the cache. -/
def setLineNumbers (s : Session) (on : Bool) : Session :=
  { s with
    lineNumbers := on
    cache := if on = s.lineNumbers then s.cache else s.cache.invalidate }

/-- Empties the cache. -/
def invalidate (s : Session) : Session :=
  { s with cache := s.cache.invalidate }

/-- The key under which the session remembers a document. -/
def keyOf (s : Session) (d : Document) : CacheKey String :=
  ⟨d.uri, d.version, d.text, s.lineNumbers⟩

/-! ## Records -/

/-- The record of a document that the detector does not take. -/
def skipped (operation : String) (d : Document) : Log.Record :=
  ⟨.debug, "axaml_outline.provider", "Skipping non-AXAML document",
    [("operation", .text operation), ("uri", .text d.uri)]⟩

/-- The record of a request that was cancelled before it began. -/
def cancelled (d : Document) : Log.Record :=
  ⟨.debug, "axaml_outline.provider", "Outline request cancelled", [("uri", .text d.uri)]⟩

/-- The record of a document that could not be read. -/
def unreadable (operation : String) (d : Document) : Log.Record :=
  ⟨.error, "axaml_outline.provider", "AXAML parsing failed",
    [("operation", .text operation), ("uri", .text d.uri), ("version", .number d.version)]⟩

/-- The record of an outline made. -/
def outlined (d : Document) (roots : Nat) (lineNumbers : Bool) : Log.Record :=
  ⟨.debug, "axaml_outline.provider", "Generated outline",
    [("roots", .number roots), ("show_line_numbers", .flag lineNumbers), ("uri", .text d.uri)]⟩

/-- The record of a message that has no other receiver. -/
def messageRecord (message : String) : Log.Record :=
  ⟨.error, "axaml_outline.provider", message, []⟩

/-- The message about a failure. -/
def failureMessage (f : Markup.Failure) : String :=
  "Error parsing AXAML: " ++ f.message

/-! ## Reading -/

/-- The forest of a document, out of the cache if it is there, with the session and the records
that reading leaves. -/
def load (reader : Markup.Reader) (s : Session) (d : Document) :
    Except Markup.Failure (Forest Element) × Session × List Log.Record :=
  let fresh (s : Session) :=
    let reading := reader s.strict d.text
    (reading.outcome, s, reading.notices.map Markup.Notice.record)
  if s.useCache then
    match s.cache.lookup (s.keyOf d) with
    | (some forest, cache) => (.ok forest, { s with cache }, [])
    | (none, cache) =>
      -- a failure leaves the slot empty, held for this document
      match fresh { s with cache } with
      | (.ok forest, s, records) =>
        (.ok forest, { s with cache := s.cache.store (s.keyOf d) forest }, records)
      | failed => failed
  else fresh s

/-- Answers from the forest of a document. `build` makes the answer and may note it in the session;
`blank` is the answer for a document that is not taken or cannot be read. -/
def view {α : Type} (reader : Markup.Reader) (operation : String) (blank : α)
    (build : Session → Forest Element → α × Session × List Log.Record) (s : Session)
    (d : Document) : Reply α :=
  if s.detector.accepts d then
    match s.load reader d with
    | (.ok forest, s, records) =>
      match build s forest with
      | (value, s, more) => ⟨value, s, [], records ++ more⟩
    | (.error f, s, records) =>
      let message := failureMessage f
      let records := records ++ [unreadable operation d]
      if s.logsMessages then ⟨blank, s, [], records ++ [messageRecord message]⟩
      else ⟨blank, s, [message], records⟩
  else ⟨blank, s, [], [skipped operation d]⟩

/-- The outline of a forest, out of the cache if it is there. -/
def buildOutline (d : Document) (s : Session) (forest : Forest Element) :
    Forest Outline.Symbol × Session × List Log.Record :=
  match if s.useCache then s.cache.outline else none with
  | some known => (known, s, [])
  | none =>
    let outline := Outline.ofForest s.lineNumbers forest
    let cache := if s.useCache then s.cache.storeOutline outline else s.cache
    (outline, { s with cache }, [outlined d outline.length s.lineNumbers])

/-! ## Questions -/

/-- The forest of a document. -/
def forest (reader : Markup.Reader) (s : Session) (d : Document) : Reply (Forest Element) :=
  s.view reader "parse" [] (fun s f => (f, s, [])) d

/-- The outline of a document, nothing if the request is cancelled. -/
def outline (reader : Markup.Reader) (isCancelled : Bool) (s : Session) (d : Document) :
    Reply (Forest Outline.Symbol) :=
  if isCancelled then ⟨[], s, [], [cancelled d]⟩
  else s.view reader "outline" [] (buildOutline d) d

/-- The listing of a document. -/
def listing (reader : Markup.Reader) (s : Session) (d : Document) : Reply (List Listing.Entry) :=
  s.view reader "symbols" [] (fun s f => (Listing.ofForest f, s, [])) d

/-- The innermost element of a document under a position. -/
def elementAt (reader : Markup.Reader) (s : Session) (d : Document) (p : Position) :
    Reply (Option (Tree Element)) :=
  s.view reader "element_at" none (fun s f => (Lookup.elementAt p f, s, [])) d

/-- The description of the innermost element of a document under a position. -/
def describeAt (reader : Markup.Reader) (s : Session) (d : Document) (p : Position) :
    Reply (Option String) :=
  let reply := s.elementAt reader d p
  { reply with value := reply.value.map Element.describe }

end Session

end MarkupOutline
