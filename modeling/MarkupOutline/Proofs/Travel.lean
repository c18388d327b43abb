import MarkupOutline.Markup.Token

/-!
# Moving through a text

Every movement of a cursor passes over some characters of the text and nothing else: `Leads` says
which. So reading a token moves a cursor on, never past the end of the text, and the places that the
tokens of a text name follow one another (`ordered_readAll`).
-/

namespace MarkupOutline

/-! ## Positions behind some text -/

/-- Some text takes a position further on. -/
theorem Position.lt_afterAll (p : Position) {cs : List Char} (h : cs ≠ []) : p < p.afterAll cs := by
  cases cs with
  | nil => exact absurd rfl h
  | cons c cs => exact Position.lt_of_lt_of_le (lt_after p c) (le_afterAll (p.after c) cs)

theorem Position.right_right (p : Position) (m n : Nat) : (p.right m).right n = p.right (m + n) := by
  rw [right, right, right, Int.natCast_add, Int.add_assoc]

/-- Text without line feeds takes a position to the right. -/
theorem Position.afterAll_eq_right {cs : List Char} (h : '\n' ∉ cs) (p : Position) :
    p.afterAll cs = p.right cs.length := by
  induction cs generalizing p with
  | nil => simp [afterAll, right]
  | cons c cs ih =>
    rw [List.mem_cons, not_or] at h
    have hafter : p.after c = p.right 1 := if_neg (Ne.symm h.1)
    have hstep : p.afterAll (c :: cs) = (p.after c).afterAll cs := rfl
    rw [hstep, ih h.2, hafter, right_right, List.length_cons, Nat.add_comm]

namespace Markup

/-! ## Movements of a cursor -/

/-- Passing over `cs` leads from the cursor `c` to the cursor `d`. -/
structure Cursor.Leads (c : Cursor) (cs : List Char) (d : Cursor) : Prop where
  rest_eq : c.rest = cs ++ d.rest
  position_eq : d.position = c.position.afterAll cs

namespace Cursor.Leads

theorem refl (c : Cursor) : c.Leads [] c := ⟨rfl, rfl⟩

theorem trans {c d e : Cursor} {cs ds : List Char} (h : c.Leads cs d) (h' : d.Leads ds e) :
    c.Leads (cs ++ ds) e where
  rest_eq := by rw [h.rest_eq, h'.rest_eq, List.append_assoc]
  position_eq := by rw [h'.position_eq, h.position_eq, Position.afterAll_append]

theorem cons {p : Position} {x : Char} {cs ds : List Char} {d : Cursor}
    (h : Leads ⟨p.after x, cs⟩ ds d) : Leads ⟨p, x :: cs⟩ (x :: ds) d :=
  ⟨congrArg (x :: ·) h.rest_eq, h.position_eq⟩

theorem advance (c : Cursor) (n : Nat) : c.Leads (c.rest.take n) (c.advance n) :=
  ⟨(List.take_append_drop n c.rest).symm, rfl⟩

theorem skipWhile (p : Char → Bool) (c : Cursor) :
    c.Leads (c.rest.takeWhile p) (c.skipWhile p) :=
  ⟨List.takeWhile_append_dropWhile.symm, rfl⟩

theorem atEnd (c : Cursor) : c.Leads c.rest c.atEnd :=
  ⟨(List.append_nil c.rest).symm, rfl⟩

theorem past? {mark : List Char} {c d : Cursor} (h : c.past? mark = some d) :
    ∃ cs, c.Leads cs d := by
  obtain ⟨p, cs⟩ := c
  unfold Cursor.past? at h
  dsimp only at h
  induction cs generalizing p with
  | nil => simp [pastFrom?] at h
  | cons x cs ih =>
    rw [pastFrom?] at h
    split at h
    · rw [Option.some.injEq] at h
      exact ⟨_, h ▸ advance ⟨p, x :: cs⟩ mark.length⟩
    · obtain ⟨ds, hds⟩ := ih (p.after x) h
      exact ⟨x :: ds, hds.cons⟩

/-- Reading the text of a tag passes over that text and the `>` that ends it. Without a `>` nothing
is left behind the text. -/
theorem readBodyFrom (quote : Option Char) (read : List Char) (p : Position) (cs : List Char) :
    ∃ ds, (Markup.readBodyFrom quote read p cs).text = read.reverse ++ ds ∧
      Leads ⟨p, cs⟩ (ds ++ if (Markup.readBodyFrom quote read p cs).ended then ['>'] else [])
        (Markup.readBodyFrom quote read p cs).next ∧
      ((Markup.readBodyFrom quote read p cs).ended = false →
        (Markup.readBodyFrom quote read p cs).next.rest = []) := by
  induction cs generalizing quote read p with
  | nil => exact ⟨[], (List.append_nil _).symm, refl _, fun _ => rfl⟩
  | cons c cs ih =>
    have hcons : ∀ quote, ∃ ds,
        (Markup.readBodyFrom quote (c :: read) (p.after c) cs).text = read.reverse ++ ds ∧
        Leads ⟨p, c :: cs⟩
          (ds ++ if (Markup.readBodyFrom quote (c :: read) (p.after c) cs).ended then ['>'] else [])
          (Markup.readBodyFrom quote (c :: read) (p.after c) cs).next ∧
        ((Markup.readBodyFrom quote (c :: read) (p.after c) cs).ended = false →
          (Markup.readBodyFrom quote (c :: read) (p.after c) cs).next.rest = []) := by
      intro quote
      obtain ⟨ds, htext, hleads, hmissing⟩ := ih quote (c :: read) (p.after c)
      rw [List.reverse_cons, List.append_assoc] at htext
      exact ⟨c :: ds, htext, hleads.cons, hmissing⟩
    unfold Markup.readBodyFrom
    split
    · exact hcons _
    · split
      · next hend =>
        rw [hend]
        exact ⟨[], (List.append_nil _).symm, ⟨rfl, rfl⟩, by simp⟩
      · exact hcons _

/-- A movement within a text keeps its end. -/
theorem atEnd_eq {c d : Cursor} {cs : List Char} (h : c.Leads cs d) : d.atEnd = c.atEnd := by
  unfold Cursor.atEnd
  rw [h.rest_eq, h.position_eq, Position.afterAll_append]

/-- A movement that leaves nothing leads to the end. -/
theorem eq_atEnd {c d : Cursor} {cs : List Char} (h : c.Leads cs d) (hrest : d.rest = []) :
    c.atEnd = d := by
  rw [← h.atEnd_eq, Cursor.atEnd, hrest]
  obtain ⟨p, rest⟩ := d
  exact congrArg _ hrest.symm

theorem position_le {c d : Cursor} {cs : List Char} (h : c.Leads cs d) :
    c.position ≤ d.position := by
  rw [h.position_eq]
  exact Position.le_afterAll _ _

/-- A movement that takes some of the text moves the position on. -/
theorem position_lt {c d : Cursor} {cs : List Char} (h : c.Leads cs d)
    (hlt : d.rest.length < c.rest.length) : c.position < d.position := by
  rw [h.position_eq]
  refine Position.lt_afterAll _ fun hnil => ?_
  rw [h.rest_eq, hnil, List.nil_append] at hlt
  exact Nat.lt_irrefl _ hlt

/-- Behind text without marks the next mark is the same. -/
theorem seekMarkup_eq {c d : Cursor} {cs : List Char} (h : c.Leads cs d) (hcs : '<' ∉ cs) :
    c.seekMarkup = d.seekMarkup := by
  have hplain : ∀ x ∈ cs, decide (x ≠ '<') = true := by
    intro x hx
    exact decide_eq_true fun heq => hcs (heq ▸ hx)
  unfold Cursor.seekMarkup Cursor.skipWhile
  rw [h.rest_eq, h.position_eq, List.takeWhile_append_of_pos hplain,
    List.dropWhile_append_of_pos hplain, Position.afterAll_append]

end Cursor.Leads

/-! ## The places that tokens name -/

namespace Token

/-- What can be read at a cursor, and where reading it leads. -/
inductive Reads (c : Cursor) : Token × Cursor → Prop
  | aside {ended : Bool} {cs : List Char} {d : Cursor} (hleads : c.Leads cs d) :
      Reads c (.aside ended, d)
  | endTag {name : List Char} (hname : Name.read? (c.advance 2).rest = some name)
      (hclose : (behindEndName c name).rest.head? = some '>') :
      Reads c (.endTag (String.ofList name) ((behindEndName c name).advance 1).position,
        (behindEndName c name).advance 1)
  | startTag {name : List Char} {body : TagBody}
      (hname : Name.read? (c.advance 1).rest = some name)
      (hbody : body = readBody ((c.advance 1).advance name.length)) :
      Reads c (.startTag ⟨String.ofList name, c.position, body.next.position, body.text,
        tagEnd body⟩, body.next)
  | stray (n : Nat) : Reads c (.stray, c.advance n)

theorem reads_read (c : Cursor) : Reads c (read c) := by
  rcases read_cases c with ⟨marks, _, hread⟩ | ⟨_, ⟨_, hread⟩ | ⟨_, hread⟩⟩
  · rw [hread]
    rcases readAside_cases marks c with ⟨d, hd, hread⟩ | ⟨_, hread⟩
    · rw [hread]
      obtain ⟨cs, hcs⟩ := Cursor.Leads.past? hd
      exact .aside ((Cursor.Leads.advance c _).trans hcs)
    · rw [hread]
      exact .aside (Cursor.Leads.atEnd c)
  · rw [hread]
    rcases readEndTag_cases c with ⟨name, hname, hclose, hread⟩ | ⟨_, hread⟩
    · rw [hread]
      exact .endTag hname hclose
    · rw [hread]
      exact .stray 2
  · rw [hread]
    rcases readStartTag_cases c with ⟨name, body, hname, hbody, hread⟩ | ⟨_, hread⟩
    · rw [hread]
      exact .startTag hname hbody
    · rw [hread]
      exact .stray 1

theorem leads_behindEndName (c : Cursor) (name : List Char) :
    ∃ cs, c.Leads cs (behindEndName c name) :=
  ⟨_, ((Cursor.Leads.advance c 2).trans (Cursor.Leads.advance _ name.length)).trans
    (Cursor.Leads.skipWhile Text.isInlineBlank _)⟩

/-- The place at which a token ends, if it names one. -/
def stop? : Token → Option Position
  | startTag tag => some tag.stop
  | endTag _ stop => some stop
  | _ => none

/-- The place at which a token starts, if it names one. -/
def start? : Token → Option Position
  | startTag tag => some tag.start
  | _ => none

namespace Reads

variable {c : Cursor} {r : Token × Cursor}

/-- Reading a token passes over some text. -/
theorem leads (h : Reads c r) : ∃ cs, c.Leads cs r.2 := by
  cases h with
  | aside hleads => exact ⟨_, hleads⟩
  | @endTag name hname hclose =>
    obtain ⟨cs, hcs⟩ := leads_behindEndName c name
    exact ⟨_, hcs.trans (Cursor.Leads.advance _ 1)⟩
  | @startTag name body hname hbody =>
    obtain ⟨cs, _, hcs, _⟩ := Cursor.Leads.readBodyFrom none []
      ((c.advance 1).advance name.length).position ((c.advance 1).advance name.length).rest
    rw [hbody]
    exact ⟨_, ((Cursor.Leads.advance c 1).trans (Cursor.Leads.advance _ name.length)).trans hcs⟩
  | stray n => exact ⟨_, Cursor.Leads.advance c n⟩

/-- A token that names its end ends where reading it leads. -/
theorem stop_eq (h : Reads c r) {p : Position} (hstop : r.1.stop? = some p) :
    p = r.2.position := by
  cases h with
  | aside hleads => simp [stop?] at hstop
  | endTag hname hclose => exact (Option.some.inj hstop).symm
  | startTag hname hbody => exact (Option.some.inj hstop).symm
  | stray n => simp [stop?] at hstop

/-- A token that names its start starts where it is read. -/
theorem start_eq (h : Reads c r) {p : Position} (hstart : r.1.start? = some p) :
    p = c.position := by
  cases h with
  | aside hleads => simp [start?] at hstart
  | endTag hname hclose => simp [start?] at hstart
  | startTag hname hbody => exact (Option.some.inj hstart).symm
  | stray n => simp [start?] at hstart

end Reads

/-! ## The tokens of a text -/

/-- The tokens of a text are told by its first mark and what stands behind it. -/
theorem readAll_congr {c d : Cursor} (h : c.seekMarkup = d.seekMarkup) : readAll c = readAll d := by
  by_cases hrest : d.seekMarkup.rest = []
  · rw [readAll_eq_nil hrest, readAll_eq_nil (by rw [h]; exact hrest)]
  · rw [readAll_eq_cons hrest, readAll_eq_cons (by rw [h]; exact hrest), h]

theorem readAll_of_rest_eq_nil {c : Cursor} (h : c.rest = []) : readAll c = [] := by
  apply readAll_eq_nil
  rw [Cursor.seekMarkup, Cursor.rest_skipWhile, h, List.dropWhile_nil]

/-- Text without marks is passed over. -/
theorem readAll_eq_of_leads {c d : Cursor} {cs : List Char} (h : c.Leads cs d) (hcs : '<' ∉ cs) :
    readAll c = readAll d :=
  readAll_congr (h.seekMarkup_eq hcs)

/-- Tokens whose places follow one another between `p` and `q`. -/
inductive Ordered : Position → List Token → Position → Prop
  | nil {p q : Position} (h : p ≤ q) : Ordered p [] q
  | startTag {p q : Position} {tag : StartTag} {tokens : List Token} (hstart : p ≤ tag.start)
      (hstop : tag.start < tag.stop) (rest : Ordered tag.stop tokens q) :
      Ordered p (.startTag tag :: tokens) q
  | endTag {p q stop : Position} {name : String} {tokens : List Token} (hstop : p ≤ stop)
      (rest : Ordered stop tokens q) : Ordered p (.endTag name stop :: tokens) q
  | aside {p q : Position} {ended : Bool} {tokens : List Token} (rest : Ordered p tokens q) :
      Ordered p (.aside ended :: tokens) q
  | stray {p q : Position} {tokens : List Token} (rest : Ordered p tokens q) :
      Ordered p (.stray :: tokens) q

theorem Ordered.weaken {p p' q : Position} {tokens : List Token} (h : Ordered p tokens q)
    (hp : p' ≤ p) : Ordered p' tokens q := by
  induction h generalizing p' with
  | nil h => exact .nil (Position.le_trans hp h)
  | startTag hstart hstop rest _ => exact .startTag (Position.le_trans hp hstart) hstop rest
  | endTag hstop rest _ => exact .endTag (Position.le_trans hp hstop) rest
  | aside _ ih => exact .aside (ih hp)
  | stray _ ih => exact .stray (ih hp)

/-- The places that the tokens of a text name follow one another up to its end. -/
theorem ordered_readAll (c : Cursor) : Ordered c.position (readAll c) c.atEnd.position := by
  induction c using readAll_induction with
  | nil c h =>
    rw [readAll_eq_nil h]
    exact .nil (Cursor.Leads.atEnd c).position_le
  | cons c h ih =>
    rw [readAll_eq_cons h]
    have hseek : c.Leads _ c.seekMarkup := Cursor.Leads.skipWhile _ c
    have hreads := reads_read c.seekMarkup
    obtain ⟨cs, hread⟩ := hreads.leads
    have hlt := hread.position_lt (length_rest_read_lt h)
    have hle := hseek.position_le
    rw [hread.atEnd_eq, hseek.atEnd_eq] at ih
    cases htoken : (read c.seekMarkup).1 with
    | startTag tag =>
      have hstop : tag.stop = (read c.seekMarkup).2.position :=
        hreads.stop_eq (by rw [htoken]; rfl)
      have hstart : tag.start = c.seekMarkup.position := hreads.start_eq (by rw [htoken]; rfl)
      exact .startTag (by rw [hstart]; exact hle) (by rw [hstart, hstop]; exact hlt)
        (by rw [hstop]; exact ih)
    | endTag name stop =>
      have hstop : stop = (read c.seekMarkup).2.position := hreads.stop_eq (by rw [htoken]; rfl)
      have hle' := Position.le_trans hle (Position.le_of_lt hlt)
      exact .endTag (by rw [hstop]; exact hle') (by rw [hstop]; exact ih)
    | aside ended => exact .aside (ih.weaken (Position.le_trans hle (Position.le_of_lt hlt)))
    | stray => exact .stray (ih.weaken (Position.le_trans hle (Position.le_of_lt hlt)))

end Token

end Markup

end MarkupOutline
