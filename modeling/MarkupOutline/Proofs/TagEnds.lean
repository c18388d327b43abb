import MarkupOutline.Proofs.FlatLines
import MarkupOutline.Proofs.LinePlaces

/-!
# Where tags end

A tag ends at the `>` behind balanced text, and at no other: a text begins in at most one way with
balanced text and a `>` (`Balanced.unique`). When it begins in no such way, it is balanced itself or
the last value in it is not complete (`exists_of_quoteBehind?_eq_some`). Looking for the end of a tag
line by line comes to the same place (`map_position_tagEnd?`), which is right behind a `>` of one of
the lines (`tagEnd?_onLine`).
-/

namespace MarkupOutline.Markup

variable {quote : Option Char} {q : Char} {cs : List Char}

/-! ## Values that are not complete -/

theorem quoteBehind?_of_not_mem {value : List Char} (h : q ∉ value) :
    quoteBehind? (some q) value = some (some q) := by
  induction value with
  | nil => rfl
  | cons c value ih =>
    rw [List.mem_cons, not_or] at h
    rw [quoteBehind?_some_cons, if_neg (Ne.symm h.1), ih h.2]

/-- A mark that is open behind a text was open in front of it, or it opened a value behind text at
whose end nothing was open. -/
theorem exists_of_quoteBehind?_eq_some (h : quoteBehind? quote cs = some (some q)) :
    quote = some q ∧ q ∉ cs ∨
    ∃ front value, cs = front ++ q :: value ∧ quoteBehind? quote front = some none ∧
      Attributes.isQuote q ∧ q ∉ value := by
  induction cs generalizing quote with
  | nil => exact .inl ⟨Option.some.inj h, List.not_mem_nil⟩
  | cons c cs ih =>
    cases quote with
    | some mark =>
      rw [quoteBehind?_some_cons] at h
      rcases ih h with ⟨hopen, hmem⟩ | ⟨front, value, rfl, hfront, hquote, hvalue⟩
      · split at hopen
        · simp at hopen
        · next hc =>
          obtain rfl := Option.some.inj hopen
          exact .inl ⟨rfl, by simp [Ne.symm hc, hmem]⟩
      · exact .inr ⟨c :: front, value, rfl, hfront, hquote, hvalue⟩
    | none =>
      rw [quoteBehind?_none_cons] at h
      split at h
      · simp at h
      · next hend =>
        rcases ih h with ⟨hopen, hmem⟩ | ⟨front, value, rfl, hfront, hquote, hvalue⟩
        · split at hopen
          · next hc =>
            -- the value that is open begins here
            obtain rfl := Option.some.inj hopen
            exact .inr ⟨[], cs, rfl, rfl, hc, hmem⟩
          · simp at hopen
        · refine .inr ⟨c :: front, value, rfl, ?_, hquote, hvalue⟩
          rw [quoteBehind?_none_cons, if_neg hend, hfront]

/-- Text in which no tag ends is balanced, or it is balanced up to a value that is not complete. -/
def Unended (cs : List Char) : Prop :=
  ∃ body, Balanced body ∧
    (cs = body ∨ ∃ q value, Attributes.isQuote q ∧ q ∉ value ∧ cs = body ++ q :: value)

theorem unended_iff : Unended cs ↔ quoteBehind? none cs ≠ none := by
  constructor
  · rintro ⟨body, hbody, rfl | ⟨q, value, hquote, hvalue, rfl⟩⟩
    · rw [balanced_iff.1 hbody]
      simp
    · have hend : q ≠ '>' := by
        rintro rfl
        exact absurd hquote (by decide)
      rw [quoteBehind?_append, balanced_iff.1 hbody, Option.bind_some, quoteBehind?_none_cons,
        if_neg hend, if_pos hquote, quoteBehind?_of_not_mem hvalue]
      simp
  · intro h
    obtain ⟨mark, hmark⟩ := Option.ne_none_iff_exists'.1 h
    cases mark with
    | none => exact ⟨cs, balanced_iff.2 hmark, .inl rfl⟩
    | some q =>
      rcases exists_of_quoteBehind?_eq_some hmark with
        ⟨hnone, _⟩ | ⟨front, value, rfl, hfront, hquote, hvalue⟩
      · simp at hnone
      · exact ⟨front, balanced_iff.2 hfront, .inr ⟨q, value, hquote, hvalue, rfl⟩⟩

/-! ## The end of a tag -/

/-- A text begins in one way at most with balanced text and a `>`. -/
theorem Balanced.unique {body body' more more' : List Char} (h : Balanced body)
    (h' : Balanced body') (heq : body ++ '>' :: more = body' ++ '>' :: more') : body = body' := by
  have hread := readBody_of_balanced h .origin more
  rw [heq, readBody_of_balanced h' .origin more', TagBody.mk.injEq] at hread
  exact hread.1.symm

/-- The place behind the `>` that ends a tag, if one does. -/
def tagEnd? (c : Cursor) : Option Position :=
  if (readBody c).ended then some (readBody c).next.position else none

theorem tagEnd?_of_balanced {body : List Char} (h : Balanced body) (p : Position)
    (more : List Char) : tagEnd? ⟨p, body ++ '>' :: more⟩ = some (p.afterAll (body ++ ['>'])) := by
  rw [tagEnd?, readBody_of_balanced h]
  rfl

theorem tagEnd?_of_unended (h : Unended cs) (p : Position) : tagEnd? ⟨p, cs⟩ = none := by
  obtain ⟨mark, hmark⟩ := Option.ne_none_iff_exists'.1 (unended_iff.1 h)
  rw [tagEnd?, readBody_of_quoteBehind? hmark]
  rfl

/-- Of every text one of the two is true: a tag ends in it, or none does. -/
theorem exists_balanced_or_unended (cs : List Char) :
    (∃ body more, cs = body ++ '>' :: more ∧ Balanced body) ∨ Unended cs := by
  cases hmark : quoteBehind? none cs with
  | none =>
    obtain ⟨body, more, hsplit, hbody⟩ := quoteBehind?_eq_none_iff.1 hmark
    exact .inl ⟨body, more, hsplit, balanced_iff.2 hbody⟩
  | some mark => exact .inr (unended_iff.2 (by simp [hmark]))

/-- The end of a tag is the place behind balanced text and a `>`. -/
theorem tagEnd?_eq_some_iff {p place : Position} : tagEnd? ⟨p, cs⟩ = some place ↔
    ∃ body more, cs = body ++ '>' :: more ∧ Balanced body ∧
      place = p.afterAll (body ++ ['>']) := by
  constructor
  · intro h
    rcases exists_balanced_or_unended cs with ⟨body, more, rfl, hbody⟩ | hunended
    · rw [tagEnd?_of_balanced hbody, Option.some.injEq] at h
      exact ⟨body, more, rfl, hbody, h.symm⟩
    · rw [tagEnd?_of_unended hunended] at h
      simp at h
  · rintro ⟨body, more, rfl, hbody, rfl⟩
    exact tagEnd?_of_balanced hbody p more

theorem tagEnd?_eq_none_iff {p : Position} : tagEnd? ⟨p, cs⟩ = none ↔ Unended cs := by
  refine ⟨fun h => ?_, fun h => tagEnd?_of_unended h p⟩
  rcases exists_balanced_or_unended cs with ⟨body, more, rfl, hbody⟩ | hunended
  · rw [tagEnd?_of_balanced hbody] at h
    simp at h
  · exact hunended

namespace LineCursor

/-- The place at column `k` of line `n` of some lines. -/
def onLine (ls : List (List Char)) (n k : Nat) : LineCursor :=
  ⟨n, k, (ls.drop n).modifyHead (·.drop k)⟩

theorem feedFree_onLine {ls : List (List Char)} (hls : ∀ l ∈ ls, '\n' ∉ l) (n k : Nat) :
    (onLine ls n k).FeedFree := by
  have hdrop : FeedFree ⟨n, 0, ls.drop n⟩ := fun l hl => hls l (List.mem_of_mem_drop hl)
  exact hdrop.right k

/-- Looking for the end of a tag line by line comes to the place at which it ends in the text of the
lines. -/
theorem map_position_tagEnd? {c : LineCursor} (hfree : c.FeedFree) :
    c.tagEnd?.map position = Markup.tagEnd? c.flat := by
  rcases tagEnd?_cases hfree with ⟨d, body, hd, -, hbody, hleads⟩ | ⟨hnone, mark, hmark⟩
  · rw [hd, Markup.tagEnd?, readBody_of_leads hbody hleads]
    rfl
  · have hread : readBody c.flat = ⟨c.flat.rest, false, c.flat.atEnd⟩ :=
      readBody_of_quoteBehind? hmark _
    rw [hnone, Markup.tagEnd?, hread]
    rfl

end LineCursor

/-- Where the text of a tag goes on from any place on some lines, looking for the end of the tag line
by line, with the mark that is open at the end of one line open at the start of the next, comes to
the place at which the tag ends. The tag ends at a place if and only if the text up to there is
balanced text and a `>`: the place is right behind this `>` on its line, and there is one such text
at most. The tag does not end if and only if there is none, which is to say that all of the text is
balanced, or is so up to a value that is not complete. -/
theorem tagEnd?_onLine {ls : List (List Char)} (hls : ∀ l ∈ ls, '\n' ∉ l) (n k : Nat) :
    (LineCursor.onLine ls n k).tagEnd?.map LineCursor.position = tagEnd? (Cursor.onLine ls n k) ∧
    (∀ place, tagEnd? (Cursor.onLine ls n k) = some place ↔
      ∃ body more, Text.restAt ls n k = body ++ '>' :: more ∧ Balanced body ∧
        place = Position.afterAll ⟨n, k⟩ (body ++ ['>']) ∧
        ∃ (m j : Nat) (l : List Char), ls[m]? = some l ∧ l[j]? = some '>' ∧
          place = ⟨m, (j + 1 : Nat)⟩ ∧ more = Text.restAt ls m (j + 1)) ∧
    (∀ body body' more more', Balanced body → Balanced body' →
      Text.restAt ls n k = body ++ '>' :: more → Text.restAt ls n k = body' ++ '>' :: more' →
      body = body') ∧
    (tagEnd? (Cursor.onLine ls n k) = none ↔
      ∀ body more, Balanced body → Text.restAt ls n k ≠ body ++ '>' :: more) ∧
    (tagEnd? (Cursor.onLine ls n k) = none ↔ Unended (Text.restAt ls n k)) := by
  refine ⟨LineCursor.map_position_tagEnd? (LineCursor.feedFree_onLine hls n k),
    fun place => ⟨fun h => ?_, ?_⟩, fun body body' more more' hbody hbody' h h' => ?_,
    ⟨fun h body more hbody hsplit => ?_, fun h => ?_⟩, tagEnd?_eq_none_iff⟩
  · obtain ⟨body, more, hsplit, hbody, hplace⟩ := tagEnd?_eq_some_iff.1 h
    obtain ⟨m, j, l, hline, hchar, hbehind, hmore⟩ :=
      Text.exists_getElem?_of_restAt_eq hls (by decide) hsplit
    exact ⟨body, more, hsplit, hbody, hplace, m, j, l, hline, hchar, hplace.trans hbehind,
      hmore.symm⟩
  · rintro ⟨body, more, hsplit, hbody, hplace, _⟩
    exact tagEnd?_eq_some_iff.2 ⟨body, more, hsplit, hbody, hplace⟩
  · exact hbody.unique hbody' (h.symm.trans h')
  · have hend := tagEnd?_eq_some_iff (p := ⟨n, k⟩).2 ⟨body, more, hsplit, hbody, rfl⟩
    rw [Cursor.onLine, hend] at h
    simp at h
  · rcases exists_balanced_or_unended (Text.restAt ls n k) with
      ⟨body, more, hsplit, hbody⟩ | hunended
    · exact absurd hsplit (h body more hbody)
    · exact tagEnd?_eq_none_iff.2 hunended

/-- A value may go on behind the end of its line, with a `>` and the other quotation mark in it. -/
theorem tagEnd?_onLine_values :
    (∀ l ∈ ["<A t='1>\"".toList, "2' u=\"'\">x".toList], '\n' ∉ l) ∧
      tagEnd? (Cursor.onLine ["<A t='1>\"".toList, "2' u=\"'\">x".toList] 0 2) = some ⟨1, 9⟩ ∧
      (LineCursor.onLine ["<A t='1>\"".toList, "2' u=\"'\">x".toList] 0 2).tagEnd?.map
        LineCursor.position = some ⟨1, 9⟩ := by
  have hls : ∀ l ∈ ["<A t='1>\"".toList, "2' u=\"'\">x".toList], '\n' ∉ l := by decide
  have hbody : Balanced " t='1>\"\n2' u=\"'\"".toList := balanced_iff.2 rfl
  obtain ⟨hlines, hplaces, -⟩ := tagEnd?_onLine hls 0 2
  have hend := (hplaces ⟨1, 9⟩).2 ⟨_, ['x'], rfl, hbody, rfl, 1, 8, "2' u=\"'\">x".toList, rfl, rfl,
    rfl, rfl⟩
  exact ⟨hls, hend, hlines.trans hend⟩

end MarkupOutline.Markup
