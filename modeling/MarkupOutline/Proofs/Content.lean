import MarkupOutline.Markup.Part
import MarkupOutline.Proofs.LineFeeds

/-!
# Well-formed content

The grammar of well-formed documents, each with its text (`print`) and the elements it stands for
(`elements`). Every piece carries what makes its text well formed, so nothing else can be printed.
-/

namespace MarkupOutline.Markup

/-! ## Names and blanks -/

/-- A name, as it stands in a text. -/
structure NameText where
  first : Char
  others : List Char
  isStart_first : Name.isStart first
  isPart_others : ∀ c ∈ others, Name.isPart c

/-- The characters of a name. -/
def NameText.chars (n : NameText) : List Char :=
  n.first :: n.others

/-- The name itself. -/
def NameText.name (n : NameText) : String :=
  String.ofList n.chars

/-- Blanks, line ends among them. There may be none. -/
abbrev Blanks := {cs : List Char // ∀ c ∈ cs, Text.isBlank c}

/-- Blanks on one line. There may be none. -/
abbrev InlineBlanks := {cs : List Char // ∀ c ∈ cs, Text.isInlineBlank c}

/-! ## Tags -/

/-- An attribute with the blanks in front of it, at least one, and around its equals sign. The value
may contain anything but the quotation mark that it stands in. -/
structure AttributeText where
  gap : Blanks
  gap_ne_nil : gap.1 ≠ []
  key : NameText
  beforeEquals : Blanks
  afterEquals : Blanks
  quote : Char
  isQuote_quote : Attributes.isQuote quote
  value : List Char
  quote_not_mem_value : quote ∉ value

namespace AttributeText

/-- The text of an attribute. -/
def print (a : AttributeText) : List Char :=
  a.gap ++ (a.key.chars ++ (a.beforeEquals ++ '=' ::
    (a.afterEquals ++ a.quote :: (a.value ++ [a.quote]))))

/-- The key of an attribute and its value, in which every run of blanks is one space. -/
def entry (a : AttributeText) : String × String :=
  (a.key.name, String.ofList (Text.collapse a.value))

end AttributeText

/-- A start tag: a name, attributes and blanks behind them. -/
structure TagText where
  name : NameText
  attributes : List AttributeText
  space : Blanks

namespace TagText

/-- The text between the name of a tag and the mark that ends it. -/
def body (t : TagText) : List Char :=
  t.attributes.flatMap AttributeText.print ++ t.space

/-- The slash that closes a tag by itself, if it does. -/
def slash (closed : Bool) : List Char :=
  if closed then ['/'] else []

/-- The text of a start tag, closed by itself or not. -/
def print (t : TagText) (closed : Bool) : List Char :=
  '<' :: (t.name.chars ++ (t.body ++ (slash closed ++ ['>'])))

/-- The text of the end tag that belongs to a start tag. -/
def printEnd (t : TagText) (space : InlineBlanks) : List Char :=
  '<' :: '/' :: (t.name.chars ++ (space ++ ['>']))

/-- The sketch of a tag with the given bounds. Of a key that comes more than once the last value
counts, and the first place. -/
def sketch (t : TagText) (start stop : Position) : Sketch :=
  Sketch.ofTag t.name.name (Attributes.ofList (t.attributes.map AttributeText.entry)) start stop

end TagText

/-! ## Asides -/

/-- A comment, a character data section, an instruction or a declaration. Each ends at the first
mark that can end it. -/
inductive Aside where
  | comment (body : List Char) (unended : ¬ "-->".toList <:+: body)
  | characterData (body : List Char) (unended : ¬ "]]>".toList <:+: body)
  | instruction (body : List Char) (unended : '>' ∉ body)
  | declaration (body : List Char) (unended : '>' ∉ body) (noComment : ¬ "--".toList <+: body)
      (noCharacterData : ¬ "[CDATA[".toList <+: body)

namespace Aside

/-- The marks that an aside stands between. -/
def marks : Aside → List Char × List Char
  | comment _ _ => ("<!--".toList, "-->".toList)
  | characterData _ _ => ("<![CDATA[".toList, "]]>".toList)
  | instruction _ _ => ("<?".toList, ">".toList)
  | declaration _ _ _ _ => ("<!".toList, ">".toList)

/-- The text between the marks of an aside. -/
def body : Aside → List Char
  | comment body _ => body
  | characterData body _ => body
  | instruction body _ => body
  | declaration body _ _ _ => body

/-- The text of an aside. -/
def print (a : Aside) : List Char :=
  a.marks.1 ++ (a.body ++ a.marks.2)

end Aside

/-! ## Content -/

/-- Well-formed content: texts without `<`, asides, and elements, which are either closed by
themselves or have content and an end tag of the same name. -/
inductive Content where
  | nil
  | text (cs : List Char) (noMarkup : '<' ∉ cs) (rest : Content)
  | aside (a : Aside) (rest : Content)
  | closed (tag : TagText) (rest : Content)
  | element (tag : TagText) (inside : Content) (space : InlineBlanks) (rest : Content)

namespace Content

/-- The text of some content. -/
def print : Content → List Char
  | nil => []
  | text cs _ rest => cs ++ rest.print
  | aside a rest => a.print ++ rest.print
  | closed tag rest => tag.print true ++ rest.print
  | element tag inside space rest =>
    tag.print false ++ (inside.print ++ (tag.printEnd space ++ rest.print))

/-- The elements of some content that starts at `p`, whatever their names. An element reaches from
the first character of its start tag to behind the last one of the tag that closes it. -/
def elements (p : Position) : Content → Forest Sketch
  | nil => []
  | text cs _ rest => rest.elements (p.afterAll cs)
  | aside a rest => rest.elements (p.afterAll a.print)
  | closed tag rest =>
    let stop := p.afterAll (tag.print true)
    ⟨tag.sketch p stop, []⟩ :: rest.elements stop
  | element tag inside space rest =>
    let below := p.afterAll (tag.print false)
    let stop := (below.afterAll inside.print).afterAll (tag.printEnd space)
    ⟨tag.sketch p stop, inside.elements below⟩ :: rest.elements stop

end Content

end MarkupOutline.Markup
