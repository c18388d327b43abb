import MarkupOutline.Proofs.Content

/-!
# The attributes of a well-formed tag

Blanks at the ends of a tag's text lead to no attributes (`pairs_trim`), and a printed attribute
leads to itself and to nothing else, with the blanks of its value collapsed
(`pairs_collapse_print`). So the attributes of a printed tag are those it is made of
(`ofText_body`).
-/

namespace MarkupOutline

/-! ## Classes of characters -/

theorem Name.not_isBlank_of_isPart {c : Char} (h : Name.isPart c) : ¬ Text.isBlank c := by
  change (((((decide (65 ≤ c.val ∧ c.val ≤ 90) ||
      (decide (97 ≤ c.val) && decide (c.val ≤ 122))) ||
      (decide (48 ≤ c.val) && decide (c.val ≤ 57))) || c == '.') || c == ':') || c == '_') ||
      c == '-' at h
  simp only [Bool.or_eq_true, Bool.and_eq_true, decide_eq_true_eq, beq_iff_eq,
    UInt32.le_iff_toNat_le] at h
  rcases h with (((h | rfl) | rfl) | rfl) | rfl
  · change (65 ≤ c.toNat ∧ c.toNat ≤ 90 ∨ 97 ≤ c.toNat ∧ c.toNat ≤ 122) ∨
      48 ≤ c.toNat ∧ c.toNat ≤ 57 at h
    simp only [Text.isBlank, Bool.or_eq_true, Bool.and_eq_true, decide_eq_true_eq, beq_iff_eq]
    omega
  all_goals decide

theorem Text.isBlank_of_isInlineBlank {c : Char} (h : Text.isInlineBlank c) : Text.isBlank c := by
  rw [isInlineBlank, Bool.and_eq_true] at h
  exact h.1

theorem Attributes.not_isBlank_of_isQuote {c : Char} (h : Attributes.isQuote c) :
    ¬ Text.isBlank c := by
  simp only [isQuote, Bool.or_eq_true, beq_iff_eq] at h
  rcases h with rfl | rfl <;> decide

namespace Text

/-! ## Trimming -/

/-- Only characters of the class are dropped. -/
theorem exists_append_trimBy (skip : Char → Bool) (cs : List Char) :
    ∃ before after, cs = before ++ (trimBy skip cs ++ after) ∧ (∀ c ∈ before, skip c) ∧
      ∀ c ∈ after, skip c := by
  have hfront := List.takeWhile_append_dropWhile (p := skip) (l := cs)
  have hback := List.takeWhile_append_dropWhile (p := skip) (l := (cs.dropWhile skip).reverse)
  refine ⟨cs.takeWhile skip, ((cs.dropWhile skip).reverse.takeWhile skip).reverse, ?_,
    List.all_eq_true.1 List.all_takeWhile, fun c hc => ?_⟩
  · rw [trimBy, ← List.reverse_append, hback, List.reverse_reverse, hfront]
  · exact List.all_eq_true.1 List.all_takeWhile c (List.mem_reverse.1 hc)

/-! ## Collapsing -/

/-- Collapsing adds nothing but spaces. -/
theorem eq_space_or_mem_of_mem_collapse {c : Char} {cs : List Char} (h : c ∈ collapse cs) :
    c = ' ' ∨ c ∈ cs := by
  induction cs with
  | nil => exact .inr h
  | cons x cs ih =>
    by_cases hx : isBlank x
    · rw [collapse_cons_of_isBlank hx] at h
      split at h
      · exact (ih h).imp_right (List.mem_cons_of_mem x)
      · rcases List.mem_cons.1 h with h | h
        · exact .inl h
        · exact (ih h).imp_right (List.mem_cons_of_mem x)
    · rw [collapse_cons_of_not_isBlank hx] at h
      rcases List.mem_cons.1 h with rfl | h
      · exact .inr List.mem_cons_self
      · exact (ih h).imp_right (List.mem_cons_of_mem x)

theorem isBlank_of_mem_collapse {cs : List Char} (hcs : ∀ c ∈ cs, isBlank c) :
    ∀ c ∈ collapse cs, isBlank c := by
  intro c hc
  rcases eq_space_or_mem_of_mem_collapse hc with rfl | hmem
  · rfl
  · exact hcs c hmem

/-- What is not blank keeps the blanks in front of it apart from those behind. -/
theorem collapse_append_cons (xs : List Char) {y : Char} (hy : ¬ isBlank y) (ys : List Char) :
    collapse (xs ++ y :: ys) = collapse xs ++ y :: collapse ys := by
  induction xs with
  | nil => exact collapse_cons_of_not_isBlank hy ys
  | cons x xs ih =>
    rw [List.cons_append]
    by_cases hx : isBlank x
    · -- whether a space stands in front already is not for `y` to say
      have hne : y ≠ ' ' := by
        rintro rfl
        exact hy rfl
      have hhead : (collapse xs ++ y :: collapse ys).head? = some ' ' ↔
          (collapse xs).head? = some ' ' := by
        cases collapse xs <;> simp [hne]
      rw [collapse_cons_of_isBlank hx, collapse_cons_of_isBlank hx, ih]
      simp only [hhead]
      split
      · rfl
      · rw [List.cons_append]
    · rw [collapse_cons_of_not_isBlank hx, collapse_cons_of_not_isBlank hx, ih, List.cons_append]

theorem collapse_append_of_not_isBlank {xs : List Char} (hxs : ∀ x ∈ xs, ¬ isBlank x)
    (ys : List Char) : collapse (xs ++ ys) = xs ++ collapse ys := by
  induction xs with
  | nil => rfl
  | cons x xs ih =>
    rw [List.forall_mem_cons] at hxs
    rw [List.cons_append, collapse_cons_of_not_isBlank hxs.1, ih hxs.2, List.cons_append]

end Text

namespace Attributes

/-! ## Blanks in front and behind -/

theorem takeWhile_append_of_dropWhile_eq_cons {p : Char → Bool} {cs behind : List Char} {y : Char}
    (h : cs.dropWhile p = y :: behind) (ds : List Char) :
    (cs ++ ds).takeWhile p = cs.takeWhile p := by
  have hsplit := List.takeWhile_append_dropWhile (p := p) (l := cs)
  rw [h] at hsplit
  have hlength := congrArg List.length hsplit
  rw [List.length_append, List.length_cons] at hlength
  rw [List.takeWhile_append, if_neg (by omega)]

/-- A blank behind a value belongs to what follows the value. -/
theorem readValue?_concat_blank {b : Char} (hb : Text.isBlank b) (cs : List Char) :
    readValue? (cs ++ [b]) = (readValue? cs).map fun (value, behind) => (value, behind ++ [b]) := by
  have hnil : [b].dropWhile Text.isBlank = [] := List.dropWhile_cons_of_pos hb
  -- each search stops in front of the blank, or runs over it to the end
  unfold readValue?
  rw [List.dropWhile_append, hnil]
  rcases cs.dropWhile Text.isBlank with _ | ⟨x, rest⟩
  · rfl
  · by_cases hx : x = '='
    · subst hx
      simp only [List.isEmpty_cons, Bool.false_eq_true, if_false, List.cons_append]
      rw [List.dropWhile_append, hnil]
      rcases rest.dropWhile Text.isBlank with _ | ⟨q, body⟩
      · rfl
      · simp only [List.isEmpty_cons, Bool.false_eq_true, if_false, List.cons_append]
        by_cases hq : isQuote q
        · have hbq : b ≠ q := by
            rintro rfl
            exact not_isBlank_of_isQuote hq hb
          have hbody : [b].dropWhile (· ≠ q) = [] :=
            List.dropWhile_cons_of_pos (decide_eq_true hbq)
          rw [if_pos hq, if_pos hq, List.dropWhile_append, hbody]
          cases hclose : body.dropWhile (· ≠ q) with
          | nil => rfl
          | cons y behind =>
            -- the value ends in front of the blank
            rw [takeWhile_append_of_dropWhile_eq_cons hclose]
            rfl
        · simp [hq]
    · simp [hx]

/-- A blank behind all attributes is no part of them. -/
theorem pairs_concat_blank {b : Char} (hb : Text.isBlank b) (cs : List Char) :
    pairs (cs ++ [b]) = pairs cs := by
  have hpart : ¬ Name.isPart b := fun h => Name.not_isBlank_of_isPart h hb
  have hstart : ¬ Name.isStart b := fun h => hpart (Name.isPart_of_isStart h)
  cases cs with
  | nil => exact pairs_cons_of_not_isStart [] hstart
  | cons c rest =>
    rw [List.cons_append]
    by_cases hc : Name.isStart c
    · rw [pairs_cons_of_isStart _ hc, pairs_cons_of_isStart _ hc,
        Text.dropWhile_append_cons hpart, Text.takeWhile_append_cons hpart,
        readValue?_concat_blank hb]
      have hlength := Text.length_dropWhile_le (p := Name.isPart) rest
      cases hvalue : readValue? (rest.dropWhile Name.isPart) with
      | none => exact pairs_concat_blank hb _
      | some result =>
        have hbehind := length_readValue?_lt hvalue
        exact congrArg _ (pairs_concat_blank hb result.2)
    · rw [pairs_cons_of_not_isStart _ hc, pairs_cons_of_not_isStart _ hc]
      exact pairs_concat_blank hb rest
termination_by cs.length
decreasing_by
  all_goals simp only [List.length_cons]
  all_goals omega

/-- Blanks in front of attributes are passed over. -/
theorem pairs_append_of_isBlank {xs : List Char} (hxs : ∀ x ∈ xs, Text.isBlank x)
    (ys : List Char) : pairs (xs ++ ys) = pairs ys := by
  induction xs with
  | nil => rfl
  | cons x xs ih =>
    rw [List.forall_mem_cons] at hxs
    have hstart : ¬ Name.isStart x := fun h =>
      Name.not_isBlank_of_isPart (Name.isPart_of_isStart h) hxs.1
    rw [List.cons_append, pairs_cons_of_not_isStart _ hstart, ih hxs.2]

theorem pairs_dropWhile_isBlank (cs : List Char) :
    pairs (cs.dropWhile Text.isBlank) = pairs cs := by
  have hblanks : ∀ c ∈ cs.takeWhile Text.isBlank, Text.isBlank c :=
    List.all_eq_true.1 List.all_takeWhile
  rw [← pairs_append_of_isBlank hblanks, List.takeWhile_append_dropWhile]

/-- Blanks at the ends of a text make no difference to its attributes. -/
theorem pairs_trim (cs : List Char) : pairs (Text.trim cs) = pairs cs := by
  -- the blanks behind the text are those in front of it read backwards
  have hend : ∀ ds : List Char, pairs (ds.dropWhile Text.isBlank).reverse = pairs ds.reverse := by
    intro ds
    induction ds with
    | nil => rfl
    | cons d ds ih =>
      rw [List.dropWhile_cons]
      split
      · next hd => rw [ih, List.reverse_cons, pairs_concat_blank hd]
      · rfl
  rw [Text.trim, Text.trimBy, hend, List.reverse_reverse, pairs_dropWhile_isBlank]

/-- The attributes of a tag are those of its text with the blanks collapsed. -/
theorem ofText_eq (cs : List Char) : ofText cs = ofList (pairs (Text.collapse cs)) := by
  rw [ofText, pairs_trim]

end Attributes

/-! ## What is read up to a character of another kind -/

theorem forall_head?_cons {p : Char → Prop} {c : Char} (h : p c) (cs : List Char) :
    ∀ y ∈ (c :: cs).head?, p y := by
  intro y hy
  rw [List.head?_cons, Option.mem_some] at hy
  exact hy ▸ h

theorem takeWhile_append_of_stop {p : Char → Bool} {xs ys : List Char} (hxs : ∀ x ∈ xs, p x)
    (hys : ∀ y ∈ ys.head?, ¬ p y) : (xs ++ ys).takeWhile p = xs := by
  rw [List.takeWhile_append_of_pos hxs]
  cases ys with
  | nil => exact List.append_nil xs
  | cons y ys => rw [List.takeWhile_cons_of_neg (hys y rfl), List.append_nil]

theorem dropWhile_append_of_stop {p : Char → Bool} {xs ys : List Char} (hxs : ∀ x ∈ xs, p x)
    (hys : ∀ y ∈ ys.head?, ¬ p y) : (xs ++ ys).dropWhile p = ys := by
  rw [List.dropWhile_append_of_pos hxs]
  cases ys with
  | nil => rfl
  | cons y ys => rw [List.dropWhile_cons_of_neg (hys y rfl)]

/-! ## Values -/

namespace Attributes

/-- A value behind an equals sign is read up to the first mark of the kind that it begins with. -/
theorem readValue?_append {before after value : List Char} {quote : Char}
    (hbefore : ∀ c ∈ before, Text.isBlank c) (hafter : ∀ c ∈ after, Text.isBlank c)
    (hquote : isQuote quote) (hvalue : quote ∉ value) (behind : List Char) :
    readValue? (before ++ '=' :: (after ++ quote :: (value ++ quote :: behind))) =
      some (value, behind) := by
  have hequals : ∀ ys, (before ++ '=' :: ys).dropWhile Text.isBlank = '=' :: ys := fun ys =>
    dropWhile_append_of_stop hbefore (forall_head?_cons (by decide) ys)
  have hopen : ∀ ys, (after ++ quote :: ys).dropWhile Text.isBlank = quote :: ys := fun ys =>
    dropWhile_append_of_stop hafter (forall_head?_cons (not_isBlank_of_isQuote hquote) ys)
  have hne : ∀ c ∈ value, decide (c ≠ quote) = true := by
    intro c hc
    refine decide_eq_true fun heq => ?_
    exact hvalue (heq ▸ hc)
  -- the value has no mark of its own kind in it, so the mark that is found ends it
  have hclose : ∀ y ∈ (quote :: behind).head?, ¬ decide (y ≠ quote) = true :=
    forall_head?_cons (by simp) behind
  simp only [readValue?, hequals, hopen, if_pos hquote, dropWhile_append_of_stop hne hclose,
    takeWhile_append_of_stop hne hclose]

/-- What is read as a value stands behind an equals sign with blanks around it, between two quotation
marks of one kind, which do not occur in it. -/
theorem exists_of_readValue?_eq_some {cs value behind : List Char}
    (h : readValue? cs = some (value, behind)) :
    ∃ before after quote, (∀ c ∈ before, Text.isBlank c) ∧ (∀ c ∈ after, Text.isBlank c) ∧
      isQuote quote ∧ quote ∉ value ∧
      cs = before ++ '=' :: (after ++ quote :: (value ++ quote :: behind)) := by
  unfold readValue? at h
  split at h
  · next rest hequals =>
    split at h
    · next quote body hopen =>
      split at h
      · next hquote =>
        split at h
        · next q out hclose =>
          rw [Option.some.injEq, Prod.mk.injEq] at h
          obtain ⟨rfl, rfl⟩ := h
          -- the value ends in front of the first mark of the kind that it begins with
          have hsame : q = quote := by
            have hstop := List.head?_dropWhile_not (fun c => decide (c ≠ quote)) body
            rw [hclose] at hstop
            exact Decidable.not_not.1 (of_decide_eq_false hstop)
          rw [hsame] at hclose
          have hbody := List.takeWhile_append_dropWhile (p := (· ≠ quote)) (l := body)
          have hrest := List.takeWhile_append_dropWhile (p := Text.isBlank) (l := rest)
          have hcs := List.takeWhile_append_dropWhile (p := Text.isBlank) (l := cs)
          rw [hclose] at hbody
          rw [hopen, ← hbody] at hrest
          rw [hequals, ← hrest] at hcs
          refine ⟨_, _, quote, List.all_eq_true.1 List.all_takeWhile,
            List.all_eq_true.1 List.all_takeWhile, hquote, fun hmem => ?_, hcs.symm⟩
          have hne := List.all_eq_true.1 List.all_takeWhile quote hmem
          exact of_decide_eq_true hne rfl
        · simp at h
      · simp at h
    · simp at h
  · simp at h

end Attributes

/-- Neither blanks nor what follows them go on with a name. -/
theorem Name.not_isPart_head?_append {xs ys : List Char} (hxs : ∀ x ∈ xs.head?, Text.isBlank x)
    (hys : ∀ y ∈ ys.head?, ¬ isPart y) : ∀ y ∈ (xs ++ ys).head?, ¬ isPart y := by
  cases xs with
  | nil => exact hys
  | cons x xs =>
    intro y hy hpart
    apply not_isBlank_of_isPart hpart
    exact hxs y hy

namespace Markup

theorem NameText.isPart_of_mem_chars (n : NameText) : ∀ c ∈ n.chars, Name.isPart c := by
  rw [chars, List.forall_mem_cons]
  exact ⟨Name.isPart_of_isStart n.isStart_first, n.isPart_others⟩

/-- A name contains nothing but what names go on with. -/
theorem NameText.not_mem_chars (n : NameText) {c : Char} (hc : ¬ Name.isPart c) : c ∉ n.chars :=
  fun h => hc (n.isPart_of_mem_chars c h)

theorem NameText.first_ne (n : NameText) {c : Char} (hc : ¬ Name.isPart c) : n.first ≠ c :=
  fun h => hc (h ▸ Name.isPart_of_isStart n.isStart_first)

theorem NameText.not_isBlank_of_mem_chars (n : NameText) : ∀ c ∈ n.chars, ¬ Text.isBlank c :=
  fun c hc => Name.not_isBlank_of_isPart (n.isPart_of_mem_chars c hc)

namespace AttributeText

variable (a : AttributeText)

theorem collapse_print (rest : List Char) :
    Text.collapse (a.print ++ rest) =
      Text.collapse a.gap ++ (a.key.chars ++ (Text.collapse a.beforeEquals ++ '=' ::
        (Text.collapse a.afterEquals ++ a.quote :: (Text.collapse a.value ++ a.quote ::
          Text.collapse rest)))) := by
  have hquote := Attributes.not_isBlank_of_isQuote a.isQuote_quote
  have hequals : ¬ Text.isBlank '=' := by decide
  have hkey := a.key.not_isBlank_of_mem_chars
  rw [NameText.chars, List.forall_mem_cons] at hkey
  simp only [print, NameText.chars, List.append_assoc, List.cons_append, List.nil_append]
  rw [Text.collapse_append_cons _ hkey.1, Text.collapse_append_of_not_isBlank hkey.2,
    Text.collapse_append_cons _ hequals, Text.collapse_append_cons _ hquote,
    Text.collapse_append_cons _ hquote]

/-- The value behind a name is read whole. -/
theorem readValue?_collapse (rest : List Char) :
    Attributes.readValue? (Text.collapse a.beforeEquals ++ '=' :: (Text.collapse a.afterEquals ++
        a.quote :: (Text.collapse a.value ++ a.quote :: rest))) =
      some (Text.collapse a.value, rest) := by
  have hvalue : a.quote ∉ Text.collapse a.value := by
    intro hmem
    rcases Text.eq_space_or_mem_of_mem_collapse hmem with hspace | hmem
    · exact Attributes.not_isBlank_of_isQuote a.isQuote_quote (by rw [hspace]; rfl)
    · exact a.quote_not_mem_value hmem
  exact Attributes.readValue?_append (Text.isBlank_of_mem_collapse a.beforeEquals.2)
    (Text.isBlank_of_mem_collapse a.afterEquals.2) a.isQuote_quote hvalue rest

/-- A printed attribute leads to its key and its value, and what follows it to the others. -/
theorem pairs_collapse_print (rest : List Char) :
    Attributes.pairs (Text.collapse (a.print ++ rest)) =
      a.entry :: Attributes.pairs (Text.collapse rest) := by
  have hblank : ∀ x ∈ (Text.collapse a.beforeEquals).head?, Text.isBlank x := by
    intro x hx
    exact Text.isBlank_of_mem_collapse a.beforeEquals.2 x (List.mem_of_mem_head? hx)
  have hequals : ∀ y ∈ (Text.collapse a.beforeEquals ++ '=' :: (Text.collapse a.afterEquals ++
      a.quote :: (Text.collapse a.value ++ a.quote :: Text.collapse rest))).head?,
      ¬ Name.isPart y :=
    Name.not_isPart_head?_append hblank (forall_head?_cons (by decide) _)
  rw [collapse_print, Attributes.pairs_append_of_isBlank (Text.isBlank_of_mem_collapse a.gap.2),
    NameText.chars, List.cons_append, Attributes.pairs_cons_of_isStart _ a.key.isStart_first,
    dropWhile_append_of_stop a.key.isPart_others hequals,
    takeWhile_append_of_stop a.key.isPart_others hequals, readValue?_collapse]
  rfl

end AttributeText

/-- The attributes of a printed tag are those it is made of. -/
theorem TagText.ofText_body (t : TagText) :
    Attributes.ofText t.body = Attributes.ofList (t.attributes.map AttributeText.entry) := by
  rw [Attributes.ofText_eq, body]
  congr 1
  induction t.attributes with
  | nil =>
    have hspace := Attributes.pairs_append_of_isBlank (Text.isBlank_of_mem_collapse t.space.2) []
    rw [List.append_nil, Attributes.pairs_nil] at hspace
    exact hspace
  | cons a attributes ih =>
    rw [List.flatMap_cons, List.append_assoc, a.pairs_collapse_print, ih, List.map_cons]

end Markup

end MarkupOutline
