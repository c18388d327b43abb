import MarkupOutline.Proofs.Travel

/-!
# What stands at the ends of tags

The tokens of a text are read one by one at marks that reading has come to
(`exists_of_mem_readAll`). A start tag begins with its `<` and its name (`Reads.exists_name`). A tag
that names its end ends behind a `>`, or else nothing of the text is left behind it
(`Reads.endsTag`).
-/

namespace MarkupOutline

/-! ## Names -/

namespace Name

variable {cs name : List Char}

/-- A name is the beginning of the text that it is read of. -/
theorem prefix_of_read? (h : read? cs = some name) : name <+: cs := by
  unfold read? at h
  split at h
  · rw [Option.some.injEq] at h
    exact h ▸ List.takeWhile_prefix _
  · simp at h

/-- All of a name goes on with characters of names. -/
theorem isPart_of_mem_read? (h : read? cs = some name) : ∀ c ∈ name, isPart c := by
  unfold read? at h
  split at h
  · rw [Option.some.injEq] at h
    exact h ▸ List.all_eq_true.1 List.all_takeWhile
  · simp at h

/-- A name ends in front of every character that cannot go on with it. -/
theorem read?_append_cons {y : Char} (hy : ¬ isPart y) (xs ys : List Char) :
    read? (xs ++ y :: ys) = read? xs := by
  unfold read?
  rw [Text.takeWhile_append_cons hy]
  cases xs with
  | nil =>
    have hstart : ¬ isStart y := fun h => hy (isPart_of_isStart h)
    simp [hstart]
  | cons x xs => rfl

end Name

namespace Markup

/-! ## Marks -/

namespace Cursor

/-- Where markup may begin there is a `<`. -/
theorem exists_rest_seekMarkup {c : Cursor} (h : c.seekMarkup.rest ≠ []) :
    ∃ rest, c.seekMarkup.rest = '<' :: rest := by
  have hnot : decide (c.seekMarkup.rest.head h ≠ '<') = false := List.head_dropWhile_not _ h
  have hmark := Decidable.not_not.1 (of_decide_eq_false hnot)
  exact ⟨_, by rw [← hmark, List.cons_head_tail]⟩

end Cursor

namespace Token

/-- Every token of a text is read at a mark that reading the text leads to. -/
theorem exists_of_mem_readAll {c : Cursor} {token : Token} (h : token ∈ readAll c) :
    ∃ d cs rest, c.Leads cs d ∧ d.rest = '<' :: rest ∧ token = (read d).1 := by
  induction c using readAll_induction with
  | nil c hrest =>
    rw [readAll_eq_nil hrest] at h
    simp at h
  | cons c hrest ih =>
    have hseek := Cursor.Leads.skipWhile (· ≠ '<') c
    rw [readAll_eq_cons hrest, List.mem_cons] at h
    rcases h with rfl | h
    · obtain ⟨rest, hmark⟩ := Cursor.exists_rest_seekMarkup hrest
      exact ⟨c.seekMarkup, _, rest, hseek, hmark, rfl⟩
    · obtain ⟨cs, hread⟩ := (reads_read c.seekMarkup).leads
      obtain ⟨d, ds, rest, hleads, hmark, htoken⟩ := ih h
      exact ⟨d, _, rest, (hseek.trans hread).trans hleads, hmark, htoken⟩

/-! ## Start tags -/

/-- A start tag is read of a name behind a mark, and of the text behind the name. -/
theorem Reads.exists_name {c d : Cursor} {tag : StartTag} (h : Reads c (.startTag tag, d)) :
    ∃ name, Name.read? (c.advance 1).rest = some name ∧ tag.name = String.ofList name ∧
      tag.start = c.position := by
  cases h with
  | startTag hname hbody => exact ⟨_, hname, rfl, rfl⟩

theorem exists_name_of_eq_read {c : Cursor} {tag : StartTag} (h : startTag tag = (read c).1) :
    ∃ name, Name.read? (c.advance 1).rest = some name ∧ tag.name = String.ofList name ∧
      tag.start = c.position := by
  have hreads : Reads c (startTag tag, (read c).2) := h ▸ reads_read c
  exact hreads.exists_name

/-! ## The ends of tags -/

/-- What reading passes over ends with a `>`, or the whole text does. -/
def EndsTag (c : Cursor) (d : Cursor) : Prop :=
  ∃ cs, c.Leads cs d ∧ (d.rest = [] ∨ ∃ ds, cs = ds ++ ['>'])

theorem EndsTag.trans {c d e : Cursor} {cs : List Char} (h : c.Leads cs d) (h' : EndsTag d e) :
    EndsTag c e := by
  obtain ⟨ds, hleads, hend⟩ := h'
  refine ⟨cs ++ ds, h.trans hleads, hend.imp id fun ⟨front, hfront⟩ => ⟨cs ++ front, ?_⟩⟩
  rw [hfront, List.append_assoc]

theorem endsTag_readBody (c : Cursor) : EndsTag c (readBody c).next := by
  obtain ⟨cs, _, hleads, hmissing⟩ := Cursor.Leads.readBodyFrom none [] c.position c.rest
  refine ⟨_, hleads, ?_⟩
  cases hended : (readBodyFrom none [] c.position c.rest).ended with
  | false => exact .inl (hmissing hended)
  | true => exact .inr ⟨cs, rfl⟩

theorem endsTag_advance {c : Cursor} (h : c.rest.head? = some '>') : EndsTag c (c.advance 1) := by
  obtain ⟨rest, hrest⟩ := List.head?_eq_some_iff.1 h
  refine ⟨_, Cursor.Leads.advance c 1, .inr ⟨[], ?_⟩⟩
  rw [hrest]
  rfl

/-- A tag that names its end ends behind a `>` or with the text. -/
theorem Reads.endsTag {c : Cursor} {r : Token × Cursor} (h : Reads c r) {p : Position}
    (hstop : r.1.stop? = some p) : EndsTag c r.2 := by
  cases h with
  | aside hleads => simp [stop?] at hstop
  | @endTag name hname hclose =>
    obtain ⟨cs, hfront⟩ := leads_behindEndName c name
    exact EndsTag.trans hfront (endsTag_advance hclose)
  | @startTag name body hname hbody =>
    have hfront := (Cursor.Leads.advance c 1).trans (Cursor.Leads.advance _ name.length)
    rw [hbody]
    exact EndsTag.trans hfront (endsTag_readBody _)
  | stray n => simp [stop?] at hstop

end Token

end Markup

end MarkupOutline
