import MarkupOutline.Proofs.ContentReturns

/-!
# Reading asides

A well-formed aside is read as one token, which ends where the aside ends (`Aside.read_print`): none
of the marks that are tried before its own begins it, and no closing mark stands in it.
-/

namespace MarkupOutline.Markup

/-! ## Marks -/

/-- A mark whose last character comes only once in it does not begin inside some text and end in a
mark behind the text. -/
theorem prefix_of_prefix_append {init xs rest : List Char} {e : Char} (he : e ∉ init)
    (hxs : xs ≠ []) (h : init ++ [e] <+: xs ++ ((init ++ [e]) ++ rest)) : init ++ [e] <+: xs := by
  have hassoc : xs ++ ((init ++ [e]) ++ rest) = (xs ++ init) ++ ([e] ++ rest) := by
    simp
  have hpos := List.length_pos_iff.2 hxs
  -- a mark that begins inside `xs` ends in front of the last character of the mark behind it
  have hshort : init ++ [e] <+: xs ++ init := by
    rw [hassoc] at h
    apply List.prefix_of_prefix_length_le h (List.prefix_append _ _)
    simp only [List.length_append, List.length_singleton]
    omega
  rcases List.prefix_or_prefix_of_prefix hshort (List.prefix_append xs _) with
    hbegins | ⟨more, hmore⟩
  · exact hbegins
  · rw [← hmore, List.prefix_append_right_inj] at hshort
    rcases List.eq_nil_or_concat more with rfl | ⟨front, last, rfl⟩
    · exact ⟨[], by rw [← hmore, List.append_nil, List.append_nil]⟩
    · -- the end of the mark would come from its other characters
      rw [List.concat_eq_append] at hmore hshort
      rw [← List.append_assoc] at hmore
      have hlast : last = e := by
        simpa using (List.append_inj' hmore rfl).2
      have hmem : last ∈ init := hshort.subset (by simp)
      exact absurd (hlast ▸ hmem) he

/-- The first mark behind a text without marks is the one that follows the text. -/
theorem Cursor.pastFrom?_append {init : List Char} {e : Char} (he : e ∉ init) (p : Position)
    (body rest : List Char) (h : ¬ init ++ [e] <:+: body) :
    pastFrom? (init ++ [e]) p (body ++ ((init ++ [e]) ++ rest)) =
      some ⟨p.afterAll (body ++ (init ++ [e])), rest⟩ := by
  induction body generalizing p with
  | nil =>
    rw [List.nil_append, List.nil_append]
    cases hmark : init ++ [e] with
    | nil => simp at hmark
    | cons m mark =>
      rw [List.cons_append, pastFrom?, if_pos (by simp), advance]
      simp
  | cons x body ih =>
    -- a mark that begins here would lie in the body
    have hnot : ¬ (init ++ [e]).isPrefixOf (x :: (body ++ ((init ++ [e]) ++ rest))) := by
      intro hbegins
      rw [List.isPrefixOf_iff_prefix] at hbegins
      exact h (prefix_of_prefix_append he (List.cons_ne_nil x body) hbegins).isInfix
    rw [List.cons_append, pastFrom?, if_neg hnot]
    exact ih (p.after x) fun hoccurs => h (hoccurs.trans (List.suffix_cons x body).isInfix)

/-! ## Asides -/

namespace Aside

/-- An aside is told by its opening mark. -/
theorem find?_asideMarks (a : Aside) (rest : List Char) :
    Token.asideMarks.find? (fun marks => marks.1.isPrefixOf (a.print ++ rest)) = some a.marks := by
  cases a with
  | comment body unended => rfl
  | characterData body unended => rfl
  | instruction body unended => rfl
  | declaration body unended noComment noCharacterData =>
    have hshort : ∀ mark : List Char, '>' ∉ mark → ¬ mark <+: body →
        mark.isPrefixOf (body ++ '>' :: rest) = false := by
      intro mark hmark hbody
      rw [Bool.eq_false_iff]
      intro hbegins
      rw [List.isPrefixOf_iff_prefix] at hbegins
      exact hbody (Text.prefix_of_prefix_append_cons hmark hbegins)
    -- behind `<!` the other two marks go on with what the body does not begin with
    have hcomment := hshort "--".toList (by decide) noComment
    have hdata := hshort "[CDATA[".toList (by decide) noCharacterData
    have hassoc : print (declaration body unended noComment noCharacterData) ++ rest =
        '<' :: '!' :: (body ++ '>' :: rest) := by
      show "<!".toList ++ (body ++ ">".toList) ++ rest = _
      rw [List.append_assoc, List.append_assoc]
      rfl
    have hcomment' : "<!--".toList.isPrefixOf ('<' :: '!' :: (body ++ '>' :: rest)) = false :=
      hcomment
    have hdata' : "<![CDATA[".toList.isPrefixOf ('<' :: '!' :: (body ++ '>' :: rest)) = false :=
      hdata
    rw [hassoc, Token.asideMarks, List.find?_cons, hcomment', List.find?_cons, hdata']
    rfl

/-- No closing mark stands in an aside. -/
theorem not_infix_body (a : Aside) : ¬ a.marks.2 <:+: a.body := by
  cases a with
  | comment body unended => exact unended
  | characterData body unended => exact unended
  | instruction body unended => exact fun h => unended (h.subset List.mem_cons_self)
  | declaration body unended _ _ => exact fun h => unended (h.subset List.mem_cons_self)

/-- The marks of an aside begin with `<` and end with the only `>` in them. -/
theorem marks_ends (a : Aside) : '<' :: a.marks.1.tail = a.marks.1 ∧
    a.marks.2.dropLast ++ ['>'] = a.marks.2 ∧ '>' ∉ a.marks.2.dropLast := by
  have hends : ∀ marks ∈ Token.asideMarks, '<' :: marks.1.tail = marks.1 ∧
      marks.2.dropLast ++ ['>'] = marks.2 ∧ '>' ∉ marks.2.dropLast := by decide
  exact hends a.marks a.marks_mem_asideMarks

/-- An aside is read as one token. -/
theorem read_print (a : Aside) (p : Position) (rest : List Char) :
    Token.read ⟨p, a.print ++ rest⟩ = (.aside true, ⟨p.afterAll a.print, rest⟩) := by
  obtain ⟨_, hclose, hlast⟩ := a.marks_ends
  have hpast := Cursor.pastFrom?_append hlast (p.afterAll a.marks.1) a.body rest
    (by rw [hclose]; exact a.not_infix_body)
  rw [hclose] at hpast
  have hassoc : a.print ++ rest = a.marks.1 ++ (a.body ++ (a.marks.2 ++ rest)) := by
    simp [print]
  rw [Token.read, a.find?_asideMarks]
  dsimp only
  have hadvance : Cursor.advance ⟨p, a.print ++ rest⟩ a.marks.1.length =
      ⟨p.afterAll a.marks.1, a.body ++ (a.marks.2 ++ rest)⟩ := by
    rw [hassoc, Cursor.advance_append]
  rw [Token.readAside, hadvance, Cursor.past?, hpast]
  dsimp only
  rw [print, Position.afterAll_append p]

end Aside

end MarkupOutline.Markup
