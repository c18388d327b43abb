import MarkupOutline.Proofs.TagAttributes

/-!
# Well-formed content without returns in front of line feeds

A text is read with the returns in front of its line feeds gone. That makes of every piece of
well-formed content another piece of the same kind (`dropReturns`), which takes the same place and
means the same (`print_dropReturns`, `sketch_dropReturns`).
-/

namespace MarkupOutline.Markup

/-! ## Names and blanks -/

/-- The blanks without the returns that a line feed follows. -/
def Blanks.dropReturns (blanks : Blanks) : Blanks :=
  ⟨Text.dropReturns blanks, fun c hc => blanks.2 c (Text.mem_of_mem_dropReturns hc)⟩

/-! ## Tags -/

namespace AttributeText

/-- The attribute without the returns that a line feed follows. -/
def dropReturns (a : AttributeText) : AttributeText where
  gap := a.gap.dropReturns
  gap_ne_nil := Text.dropReturns_ne_nil a.gap_ne_nil
  key := a.key
  beforeEquals := a.beforeEquals.dropReturns
  afterEquals := a.afterEquals.dropReturns
  quote := a.quote
  isQuote_quote := a.isQuote_quote
  value := Text.dropReturns a.value
  quote_not_mem_value h := a.quote_not_mem_value (Text.mem_of_mem_dropReturns h)

theorem entry_dropReturns (a : AttributeText) : a.dropReturns.entry = a.entry := by
  rw [entry, entry]
  show (a.key.name, String.ofList (Text.collapse (Text.dropReturns a.value))) = _
  rw [Text.collapse_dropReturns]

/-- No line feed begins at a mark of an attribute, so its parts can be taken one by one. -/
theorem dropReturns_print_append (a : AttributeText) (rest : List Char) :
    Text.dropReturns (a.print ++ rest) = a.dropReturns.print ++ Text.dropReturns rest := by
  have hquote := Attributes.not_isBlank_of_isQuote a.isQuote_quote
  have hfeed : a.quote ≠ '\n' := fun h => hquote (by rw [h]; rfl)
  have hreturn : a.quote ≠ '\r' := fun h => hquote (by rw [h]; rfl)
  have hkey : '\r' ∉ a.key.chars := a.key.not_mem_chars (by decide)
  rw [NameText.chars, List.mem_cons, not_or] at hkey
  have hassoc : a.print ++ rest = a.gap ++ a.key.first :: (a.key.others ++ (a.beforeEquals ++ '=' ::
      (a.afterEquals ++ a.quote :: (a.value ++ a.quote :: rest)))) := by
    simp [print, NameText.chars]
  -- the name, the equals sign and both quotation marks split the text
  rw [hassoc, Text.dropReturns_append_cons _ (a.key.first_ne (by decide)),
    Text.dropReturns_cons_of_ne (Ne.symm hkey.1), Text.dropReturns_append_of_not_mem hkey.2,
    Text.dropReturns_append_cons _ (by decide), Text.dropReturns_cons_of_ne (by decide),
    Text.dropReturns_append_cons _ hfeed, Text.dropReturns_cons_of_ne hreturn,
    Text.dropReturns_append_cons _ hfeed, Text.dropReturns_cons_of_ne hreturn]
  simp [print, dropReturns, Blanks.dropReturns, NameText.chars]

end AttributeText

namespace TagText

/-- The tag without the returns that a line feed follows. -/
def dropReturns (t : TagText) : TagText where
  name := t.name
  attributes := t.attributes.map AttributeText.dropReturns
  space := t.space.dropReturns

theorem sketch_dropReturns (t : TagText) (start stop : Position) :
    t.dropReturns.sketch start stop = t.sketch start stop := by
  have hentries : t.dropReturns.attributes.map AttributeText.entry =
      t.attributes.map AttributeText.entry := by
    show (t.attributes.map AttributeText.dropReturns).map AttributeText.entry = _
    rw [List.map_map]
    exact List.map_congr_left fun a _ => a.entry_dropReturns
  rw [sketch, hentries]
  rfl

theorem body_dropReturns (t : TagText) : t.dropReturns.body = Text.dropReturns t.body := by
  have hattributes : ∀ (attributes : List AttributeText) (rest : List Char),
      Text.dropReturns (attributes.flatMap AttributeText.print ++ rest) =
        (attributes.map AttributeText.dropReturns).flatMap AttributeText.print ++
          Text.dropReturns rest := by
    intro attributes rest
    induction attributes with
    | nil => rfl
    | cons a attributes ih =>
      rw [List.flatMap_cons, List.append_assoc, a.dropReturns_print_append, ih, List.map_cons,
        List.flatMap_cons, List.append_assoc]
  exact (hattributes t.attributes t.space).symm

theorem print_dropReturns (t : TagText) (closed : Bool) :
    t.dropReturns.print closed = Text.dropReturns (t.print closed) := by
  have hend : '\n' ∉ slash closed ++ ['>'] := by
    cases closed <;> decide
  rw [print, print, Text.dropReturns_cons_of_ne (by decide),
    Text.dropReturns_append_of_not_mem (t.name.not_mem_chars (by decide)),
    Text.dropReturns_append_of_no_feed _ hend, body_dropReturns]
  rfl

/-- An end tag stands on one line. -/
theorem dropReturns_printEnd (t : TagText) (space : InlineBlanks) :
    Text.dropReturns (t.printEnd space) = t.printEnd space := by
  apply Text.dropReturns_eq_self
  intro hmem
  have hname : '\n' ∉ t.name.chars := t.name.not_mem_chars (by decide)
  have hspace := space.2 '\n'
  simp only [printEnd, List.mem_cons, List.mem_append, List.not_mem_nil] at hmem
  rcases hmem with h | h | h | h | h | h
  · exact absurd h (by decide)
  · exact absurd h (by decide)
  · exact hname h
  · exact absurd (hspace h) (by decide)
  · exact absurd h (by decide)
  · exact h

end TagText

/-! ## Asides -/

namespace Aside

/-- The aside without the returns that a line feed follows. -/
def dropReturns : Aside → Aside
  | comment body unended => comment (Text.dropReturns body) fun h =>
    unended (Text.infix_of_infix_dropReturns (by decide) h)
  | characterData body unended => characterData (Text.dropReturns body) fun h =>
    unended (Text.infix_of_infix_dropReturns (by decide) h)
  | instruction body unended => instruction (Text.dropReturns body) fun h =>
    unended (Text.mem_of_mem_dropReturns h)
  | declaration body unended noComment noCharacterData =>
    declaration (Text.dropReturns body) (fun h => unended (Text.mem_of_mem_dropReturns h))
      (fun h => noComment (Text.prefix_of_prefix_dropReturns (by decide) h))
      (fun h => noCharacterData (Text.prefix_of_prefix_dropReturns (by decide) h))

theorem marks_mem_asideMarks : (a : Aside) → a.marks ∈ Token.asideMarks
  | comment _ _ => .head _
  | characterData _ _ => .tail _ (.head _)
  | instruction _ _ => .tail _ (.tail _ (.head _))
  | declaration _ _ _ _ => .tail _ (.tail _ (.tail _ (.head _)))

theorem print_dropReturns (a : Aside) : a.dropReturns.print = Text.dropReturns a.print := by
  have honeLine : ∀ marks ∈ Token.asideMarks, '\r' ∉ marks.1 ∧ '\n' ∉ marks.2 := by decide
  have hmarks : a.dropReturns.marks = a.marks := by
    cases a <;> rfl
  have hbody : a.dropReturns.body = Text.dropReturns a.body := by
    cases a <;> rfl
  have ⟨hopen, hclose⟩ := honeLine a.marks a.marks_mem_asideMarks
  rw [print, print, Text.dropReturns_append_of_not_mem hopen,
    Text.dropReturns_append_of_no_feed _ hclose, hmarks, hbody]

end Aside

end MarkupOutline.Markup
