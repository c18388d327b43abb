import Mathlib.Data.List.Forall2
import MarkupOutline.Markup.Token

/-!
# The same text elsewhere

What is read of a text does not depend on where the text stands; the places alone do. When the same
text stands at two places, related in a way that reading on keeps (`Position.Carried`), the same
tokens are read of it, and their places are related as well (`forall₂_readAll`).
-/

namespace MarkupOutline

variable {R : Position → Position → Prop}

/-- Places that are related stay so when the same character is read at both. -/
def Position.Carried (R : Position → Position → Prop) : Prop :=
  ∀ ⦃p q⦄, R p q → ∀ c, R (p.after c) (q.after c)

theorem Position.Carried.afterAll (hR : Carried R) {p q : Position} (h : R p q) (cs : List Char) :
    R (p.afterAll cs) (q.afterAll cs) := by
  induction cs generalizing p q with
  | nil => exact h
  | cons c cs ih => exact ih (hR h c)

namespace Markup

/-! ## Cursors -/

/-- Two cursors on the same text, at related places. -/
structure Cursor.Elsewhere (R : Position → Position → Prop) (c d : Cursor) : Prop where
  rest_eq : c.rest = d.rest
  position : R c.position d.position

namespace Cursor.Elsewhere

variable {c d : Cursor}

theorem advance (hR : Position.Carried R) (h : c.Elsewhere R d) (n : Nat) :
    (c.advance n).Elsewhere R (d.advance n) where
  rest_eq := by rw [rest_advance, rest_advance, h.rest_eq]
  position := by
    rw [Cursor.advance, Cursor.advance, h.rest_eq]
    exact hR.afterAll h.position _

theorem skipWhile (hR : Position.Carried R) (h : c.Elsewhere R d) (p : Char → Bool) :
    (c.skipWhile p).Elsewhere R (d.skipWhile p) where
  rest_eq := by rw [rest_skipWhile, rest_skipWhile, h.rest_eq]
  position := by
    rw [Cursor.skipWhile, Cursor.skipWhile, h.rest_eq]
    exact hR.afterAll h.position _

theorem atEnd (hR : Position.Carried R) (h : c.Elsewhere R d) : c.atEnd.Elsewhere R d.atEnd where
  rest_eq := rfl
  position := by
    rw [Cursor.atEnd, Cursor.atEnd, h.rest_eq]
    exact hR.afterAll h.position _

end Cursor.Elsewhere

theorem Cursor.pastFrom?_elsewhere (hR : Position.Carried R) (mark : List Char) {p q : Position}
    (h : R p q) (cs : List Char) :
    Option.Rel (Elsewhere R) (pastFrom? mark p cs) (pastFrom? mark q cs) := by
  induction cs generalizing p q with
  | nil => exact .none
  | cons x cs ih =>
    unfold pastFrom?
    split
    · have hhere : Elsewhere R ⟨p, x :: cs⟩ ⟨q, x :: cs⟩ := ⟨rfl, h⟩
      exact .some (hhere.advance hR mark.length)
    · exact ih (hR h x)

/-! ## Tokens -/

theorem readBodyFrom_elsewhere (hR : Position.Carried R) (quote : Option Char) (read : List Char)
    {p q : Position} (h : R p q) (cs : List Char) :
    (readBodyFrom quote read p cs).text = (readBodyFrom quote read q cs).text ∧
      (readBodyFrom quote read p cs).ended = (readBodyFrom quote read q cs).ended ∧
      (readBodyFrom quote read p cs).next.Elsewhere R (readBodyFrom quote read q cs).next := by
  induction cs generalizing quote read p q with
  | nil => exact ⟨rfl, rfl, rfl, h⟩
  | cons c cs ih =>
    unfold readBodyFrom
    cases quote with
    | some mark => exact ih _ _ (hR h c)
    | none =>
      dsimp only
      split
      · exact ⟨rfl, rfl, rfl, hR h c⟩
      · exact ih _ _ (hR h c)

namespace Token

/-- The same token, at related places. -/
inductive Elsewhere (R : Position → Position → Prop) : Token → Token → Prop
  | aside (ended : Bool) : Elsewhere R (aside ended) (aside ended)
  | endTag (name : String) {p q : Position} (h : R p q) : Elsewhere R (endTag name p) (endTag name q)
  | startTag {tag tag' : StartTag} (hname : tag.name = tag'.name) (hstart : R tag.start tag'.start)
      (hstop : R tag.stop tag'.stop) (hbody : tag.body = tag'.body)
      (hending : tag.ending = tag'.ending) : Elsewhere R (startTag tag) (startTag tag')
  | stray : Elsewhere R stray stray

/-- The same token has been read, and reading goes on with the same text, at related places. -/
def ReadsAlike (R : Position → Position → Prop) (r r' : Token × Cursor) : Prop :=
  Elsewhere R r.1 r'.1 ∧ r.2.Elsewhere R r'.2

variable {c d : Cursor}

theorem readAside_elsewhere (hR : Position.Carried R) (h : c.Elsewhere R d)
    (marks : List Char × List Char) : ReadsAlike R (readAside marks c) (readAside marks d) := by
  have hbehind := h.advance hR marks.1.length
  have hpast := Cursor.pastFrom?_elsewhere hR marks.2 hbehind.position
    (c.advance marks.1.length).rest
  rw [← Cursor.past?, hbehind.rest_eq, ← Cursor.past?] at hpast
  unfold readAside
  generalize (c.advance marks.1.length).past? marks.2 = found at hpast ⊢
  generalize (d.advance marks.1.length).past? marks.2 = found' at hpast ⊢
  cases hpast with
  | none => exact ⟨.aside false, h.atEnd hR⟩
  | some hnext => exact ⟨.aside true, hnext⟩

theorem readEndTag_elsewhere (hR : Position.Carried R) (h : c.Elsewhere R d) :
    ReadsAlike R (readEndTag c) (readEndTag d) := by
  have hbehind := h.advance hR 2
  unfold readEndTag
  rw [hbehind.rest_eq]
  cases Name.read? (d.advance 2).rest with
  | none => exact ⟨.stray, hbehind⟩
  | some name =>
    have hending := (hbehind.advance hR name.length).skipWhile hR Text.isInlineBlank
    have hclose := hending.advance hR 1
    dsimp only
    rw [hending.rest_eq]
    split
    · exact ⟨.endTag _ hclose.position, hclose⟩
    · exact ⟨.stray, hbehind⟩

theorem readStartTag_elsewhere (hR : Position.Carried R) (h : c.Elsewhere R d) :
    ReadsAlike R (readStartTag c) (readStartTag d) := by
  have hbehind := h.advance hR 1
  unfold readStartTag
  rw [hbehind.rest_eq]
  cases Name.read? (d.advance 1).rest with
  | none => exact ⟨.stray, hbehind⟩
  | some name =>
    have hname := hbehind.advance hR name.length
    obtain ⟨htext, hended, hnext⟩ := readBodyFrom_elsewhere hR none [] hname.position
      ((c.advance 1).advance name.length).rest
    rw [← readBody, hname.rest_eq, ← readBody] at htext hended hnext
    refine ⟨.startTag rfl h.position hnext.position htext ?_, hnext⟩
    dsimp only
    rw [tagEnd, tagEnd, htext, hended]

/-- The token that begins at a cursor does not depend on the place of the cursor. -/
theorem read_elsewhere (hR : Position.Carried R) (h : c.Elsewhere R d) :
    ReadsAlike R (read c) (read d) := by
  unfold read
  rw [h.rest_eq]
  cases asideMarks.find? fun marks => marks.1.isPrefixOf d.rest with
  | some marks => exact readAside_elsewhere hR h marks
  | none =>
    dsimp only
    split
    · exact readEndTag_elsewhere hR h
    · exact readStartTag_elsewhere hR h

/-- The tokens of a text do not depend on where it stands. -/
theorem forall₂_readAll (hR : Position.Carried R) (h : c.Elsewhere R d) :
    List.Forall₂ (Elsewhere R) (readAll c) (readAll d) := by
  induction c using readAll_induction generalizing d with
  | nil c hmark =>
    have hseek : c.seekMarkup.Elsewhere R d.seekMarkup := h.skipWhile hR _
    rw [readAll_eq_nil hmark, readAll_eq_nil (hseek.rest_eq ▸ hmark)]
    exact .nil
  | cons c hmark ih =>
    have hseek : c.seekMarkup.Elsewhere R d.seekMarkup := h.skipWhile hR _
    have hmark' : d.seekMarkup.rest ≠ [] := hseek.rest_eq ▸ hmark
    obtain ⟨hfirst, hnext⟩ := read_elsewhere hR hseek
    rw [readAll_eq_cons hmark, readAll_eq_cons hmark']
    exact .cons hfirst (ih hnext)

end Token

end Markup

end MarkupOutline
