import MarkupOutline.Proofs.Pruned
import MarkupOutline.Proofs.ReadingAsides
import MarkupOutline.Proofs.ReadingTags

/-!
# Well-formed documents

A well-formed document is read without a mismatch, strictly or not, and comes to the elements it
was printed of, pruned (`read_wellFormed`). The induction is on its content: wherever some content
stands in a text, taking in its tokens adds its elements to the nest and nothing else
(`assemble_content`).
-/

namespace MarkupOutline.Markup

open Forest Nest

/-! ## Tokens -/

theorem Cursor.seekMarkup_cons {x : Char} (hx : x ≠ '<') (p : Position) (cs : List Char) :
    seekMarkup ⟨p, x :: cs⟩ = seekMarkup ⟨p.after x, cs⟩ := by
  simp [seekMarkup, skipWhile, hx, Position.afterAll]

namespace Token

/-- A character that begins no markup is passed over, whether it belongs to a line end or not. -/
theorem readAll_cons {x : Char} (hx : x ≠ '<') (p : Position) (rest : List Char) :
    readAll ⟨p, Text.withLineFeeds (x :: rest)⟩ =
      readAll ⟨p.after x, Text.withLineFeeds rest⟩ := by
  rw [Text.withLineFeeds_cons]
  split
  · next hreturn =>
    rw [Bool.and_eq_true, decide_eq_true_eq] at hreturn
    obtain ⟨rfl, hend⟩ := hreturn
    cases rest with
    | nil => rw [Text.withLineFeeds_nil, readAll_eq_nil rfl, readAll_eq_nil rfl]
    | cons y rest =>
      -- the return is gone, and the line feed behind it begins the next line all the same
      have hfeed : y = '\n' := by simpa [Text.endsLine] using hend
      subst hfeed
      rw [Text.withLineFeeds_cons_of_ne (by decide)]
      apply readAll_congr
      rw [Cursor.seekMarkup_cons (by decide), Cursor.seekMarkup_cons (by decide)]
      rfl
  · exact readAll_congr (Cursor.seekMarkup_cons hx p _)

/-- A text without markup is passed over. -/
theorem readAll_text {cs : List Char} (h : '<' ∉ cs) (p : Position) (rest : List Char) :
    readAll ⟨p, Text.withLineFeeds (cs ++ rest)⟩ =
      readAll ⟨p.afterAll cs, Text.withLineFeeds rest⟩ := by
  induction cs generalizing p with
  | nil => rfl
  | cons x cs ih =>
    rw [List.mem_cons, not_or] at h
    rw [List.cons_append, readAll_cons (Ne.symm h.1), ih h.2]
    rfl

/-- A piece of markup is read as the token that it is read as without the returns in front of its
line feeds. -/
theorem readAll_piece {piece : List Char} (hpiece : ∃ cs, piece = '<' :: (cs ++ ['>']))
    {token : Token} {p : Position} {rest : List Char}
    (h : read ⟨p, Text.dropReturns piece ++ Text.withLineFeeds rest⟩ =
      (token, ⟨p.afterAll (Text.dropReturns piece), Text.withLineFeeds rest⟩)) :
    readAll ⟨p, Text.withLineFeeds (piece ++ rest)⟩ =
      token :: readAll ⟨p.afterAll piece, Text.withLineFeeds rest⟩ := by
  rw [Position.afterAll_dropReturns] at h
  obtain ⟨cs, rfl⟩ := hpiece
  have hfeeds : Text.withLineFeeds (('<' :: (cs ++ ['>'])) ++ rest) =
      Text.dropReturns ('<' :: (cs ++ ['>'])) ++ Text.withLineFeeds rest :=
    Text.withLineFeeds_concat_append ('<' :: cs) (by decide) (by decide) rest
  have hopen : Text.dropReturns ('<' :: (cs ++ ['>'])) = '<' :: Text.dropReturns (cs ++ ['>']) :=
    Text.dropReturns_cons_of_ne (by decide) _
  rw [hopen] at hfeeds h
  have hseek : Cursor.seekMarkup ⟨p, '<' :: Text.dropReturns (cs ++ ['>']) ++
      Text.withLineFeeds rest⟩ = ⟨p, '<' :: Text.dropReturns (cs ++ ['>']) ++
      Text.withLineFeeds rest⟩ := rfl
  rw [hfeeds, readAll_eq_cons (by rw [hseek]; exact List.cons_ne_nil _ _), hseek, h]

theorem readAll_aside (a : Aside) (p : Position) (rest : List Char) :
    readAll ⟨p, Text.withLineFeeds (a.print ++ rest)⟩ =
      aside true :: readAll ⟨p.afterAll a.print, Text.withLineFeeds rest⟩ := by
  obtain ⟨hopen, hclose, _⟩ := a.marks_ends
  have hpiece : ∃ cs, a.print = '<' :: (cs ++ ['>']) := by
    refine ⟨a.marks.1.tail ++ (a.body ++ a.marks.2.dropLast), ?_⟩
    rw [Aside.print, List.append_assoc, List.append_assoc, hclose, ← List.cons_append, hopen]
  have hread := a.dropReturns.read_print p (Text.withLineFeeds rest)
  rw [a.print_dropReturns] at hread
  exact readAll_piece hpiece hread

theorem readAll_startTag (t : TagText) (closed : Bool) (p : Position) (rest : List Char) :
    readAll ⟨p, Text.withLineFeeds (t.print closed ++ rest)⟩ =
      startTag (t.dropReturns.startTag closed p) ::
        readAll ⟨p.afterAll (t.print closed), Text.withLineFeeds rest⟩ := by
  have hpiece : ∃ cs, t.print closed = '<' :: (cs ++ ['>']) :=
    ⟨t.name.chars ++ (t.body ++ TagText.slash closed), by simp [TagText.print]⟩
  have hread := t.dropReturns.read_print closed p (Text.withLineFeeds rest)
  rw [t.print_dropReturns] at hread
  exact readAll_piece hpiece hread

theorem readAll_endTag (t : TagText) (space : InlineBlanks) (p : Position) (rest : List Char) :
    readAll ⟨p, Text.withLineFeeds (t.printEnd space ++ rest)⟩ =
      endTag t.name.name (p.afterAll (t.printEnd space)) ::
        readAll ⟨p.afterAll (t.printEnd space), Text.withLineFeeds rest⟩ := by
  have hpiece : ∃ cs, t.printEnd space = '<' :: (cs ++ ['>']) :=
    ⟨'/' :: (t.name.chars ++ space), by simp [TagText.printEnd]⟩
  apply readAll_piece hpiece
  rw [t.dropReturns_printEnd]
  exact t.read_printEnd space p _

end Token

/-! ## Content -/

/-- Content takes up the places from its start to its end. -/
theorem Content.laid_elements (c : Content) (p : Position) :
    Laid p (p.afterAll c.print) (c.elements p) := by
  induction c generalizing p with
  | nil => exact .nil (Position.le_refl p)
  | text cs _ rest ih =>
    rw [print, Position.afterAll_append]
    exact (ih _).lower (Position.le_afterAll p cs)
  | aside a rest ih =>
    rw [print, Position.afterAll_append]
    exact (ih _).lower (Position.le_afterAll p a.print)
  | closed tag rest ih =>
    rw [print, Position.afterAll_append]
    have hlt : p < p.afterAll (tag.print true) := Position.lt_afterAll p (List.cons_ne_nil _ _)
    exact .cons (Position.le_refl p) hlt (.nil (Position.le_refl _)) (ih _)
  | element tag inside space rest ihinside ihrest =>
    rw [print, Position.afterAll_append, Position.afterAll_append, Position.afterAll_append]
    have hlt : p < p.afterAll (tag.print false) := Position.lt_afterAll p (List.cons_ne_nil _ _)
    have hbelow := (ihinside (p.afterAll (tag.print false))).upper
      (Position.le_afterAll _ (tag.printEnd space))
    exact .cons (Position.le_refl p) hlt hbelow (ihrest _)

/-- A token that makes no mismatch is taken in by every assembly. -/
theorem assemble_cons_of_no_mismatch (strict : Bool) (lines : Nat) (stop : Position) {a : Assembly}
    {token : Token} (h : a.mismatch? token = none) (tokens : List Token) :
    assemble strict lines stop a (token :: tokens) =
      assemble strict lines stop (a.step token) tokens := by
  cases strict with
  | true => rw [assemble_true_cons, h]
  | false => exact assemble_false_cons lines stop a token tokens

/-- A start tag is taken in by every assembly. -/
theorem assemble_startTag (strict : Bool) (lines : Nat) (stop : Position) (n : Nest Sketch)
    (notices : List Notice) (tag : StartTag) (tokens : List Token) :
    assemble strict lines stop (.ofNest n notices) (.startTag tag :: tokens) =
      assemble strict lines stop (.ofNest (fullStep n (.startTag tag)) notices) tokens := by
  rw [assemble_cons_of_no_mismatch strict lines stop rfl, step_ofNest]
  rfl

/-- An end tag that matches is taken in by every assembly. -/
theorem assemble_endTag (strict : Bool) (lines : Nat) (stop : Position)
    (inside front : Forest Sketch) (s : Sketch) (around : List (Forest Sketch × Sketch))
    (notices : List Notice) (p : Position) (tokens : List Token) :
    assemble strict lines stop (.ofNest ⟨inside, (front, s) :: around⟩ notices)
        (.endTag s.tag p :: tokens) =
      assemble strict lines stop (.ofNest ⟨front ++ [⟨s.endAt p, inside⟩], around⟩ notices)
        tokens := by
  have hmatch : (Assembly.ofNest ⟨inside, (front, s) :: around⟩ notices).mismatch?
      (.endTag s.tag p) = none := if_pos rfl
  have hnotice : noticeOf ⟨inside, (front, s) :: around⟩ (.endTag s.tag p) = [] := if_pos rfl
  rw [assemble_cons_of_no_mismatch strict lines stop hmatch, step_ofNest, hnotice]
  rfl

/-- Taking in well-formed content adds its elements to the nest, whatever stands around it. -/
theorem assemble_content (strict : Bool) (lines : Nat) (stop : Position) (notices : List Notice)
    (c : Content) (n : Nest Sketch) (p : Position) (rest : List Char) :
    assemble strict lines stop (.ofNest n notices)
        (Token.readAll ⟨p, Text.withLineFeeds (c.print ++ rest)⟩) =
      assemble strict lines stop (.ofNest (n.add (c.elements p)) notices)
        (Token.readAll ⟨p.afterAll c.print, Text.withLineFeeds rest⟩) := by
  -- the nest and the text behind are arbitrary, since content inside an element has its end tag and
  -- more behind it
  induction c generalizing n p rest with
  | nil =>
    rw [Content.elements, add_nil]
    rfl
  | text cs noMarkup after ih =>
    rw [Content.print, List.append_assoc, Token.readAll_text noMarkup, ih,
      Position.afterAll_append]
    rfl
  | aside a after ih =>
    rw [Content.print, List.append_assoc, Token.readAll_aside,
      assemble_cons_of_no_mismatch strict lines stop rfl, step_ofNest, Position.afterAll_append]
    exact ih n _ rest
  | closed tag after ih =>
    have hclosed : (tag.dropReturns.startTag true p).ending = .closed := rfl
    have hstep : fullStep n (.startTag (tag.dropReturns.startTag true p)) =
        n.add [⟨tag.sketch p (p.afterAll (tag.print true)), []⟩] := by
      rw [fullStep, if_pos hclosed, tag.sketch_startTag_dropReturns]
    rw [Content.print, List.append_assoc, Token.readAll_startTag, assemble_startTag, hstep, ih,
      add_add, Position.afterAll_append]
    rfl
  | element tag inside space after ihinside ihafter =>
    have hopened : (tag.dropReturns.startTag false p).ending ≠ .closed := by
      simp [TagText.startTag]
    have hstep : fullStep n (.startTag (tag.dropReturns.startTag false p)) =
        n.enter (tag.sketch p (p.afterAll (tag.print false))) := by
      rw [fullStep, if_neg hopened, tag.sketch_startTag_dropReturns]
    rw [Content.print, List.append_assoc, Token.readAll_startTag, assemble_startTag, hstep,
      List.append_assoc, ihinside, List.append_assoc, Token.readAll_endTag]
    -- the end tag bears the name of the tag that the content stands in
    refine (assemble_endTag strict lines stop _ n.inside _ n.around notices _ _).trans ?_
    rw [ihafter, Position.afterAll_append, Position.afterAll_append, Position.afterAll_append]
    show assemble strict lines stop (.ofNest (Nest.add (n.add _) _) notices) _ = _
    rw [add_add]
    rfl

/-- Every well-formed document is read without a mismatch, strictly or not, and both readings make
of it the forest of its elements: definition blocks are left out with all they contain, the content
of the other property elements stands in their place, and each element has the attributes, the
label, the kind and the exact bounds that its tags give it. -/
theorem read_wellFormed (c : Content) :
    ∃ forest, (∀ strict, (read strict (String.ofList c.print)).outcome = .ok forest) ∧
      map sketchOf forest = prune (c.elements .origin) := by
  obtain ⟨forest, hforest⟩ := (c.laid_elements .origin).prune.exists_map_sketchOf_eq
  refine ⟨forest, fun strict => ?_, hforest⟩
  have hrun := assemble_content strict (Text.lineCount c.print)
    (Cursor.ofText c.print).atEnd.position [] c .empty .origin []
  have hend : Token.readAll ⟨Position.origin.afterAll c.print, []⟩ = [] := Token.readAll_eq_nil rfl
  rw [List.append_nil, ofNest_empty, Text.withLineFeeds_nil, hend] at hrun
  have hbuild : (Assembly.ofNest (Nest.empty.add (c.elements .origin)) []).forest
      (Cursor.ofText c.print).atEnd.position = .ok forest := forest_ofNest _ [] _ hforest
  rw [read_eq, endOf, tokensOf, String.toList_ofList]
  show (assemble strict (Text.lineCount c.print) (Cursor.ofText c.print).atEnd.position .empty
    (Token.readAll ⟨.origin, Text.withLineFeeds c.print⟩)).outcome = _
  rw [hrun, assemble, hbuild]

end MarkupOutline.Markup
