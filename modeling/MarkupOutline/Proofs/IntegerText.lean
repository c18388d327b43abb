import MarkupOutline.Proofs.TagAttributes
import MarkupOutline.Text.Integer

/-!
# Texts that denote integers

`IntegerText` is the grammar of integers in text: characters of a class that is passed over, a sign
or none, digits of any script with single underscores between them, and characters of that class
again. Reading an integer accepts what the grammar does with white space around the number, and
gives the integer that the grammar gives (`readInteger?_eq_some_iff`). Among these texts is every
way of writing a number down in decimal digits (`Written.integerText`).
-/

namespace MarkupOutline.Text

/-! ## The grammar -/

/-- Digits of any script with single underscores between them, and the number that they denote. -/
inductive DigitText : List Char → Nat → Prop
  | digit {c : Char} {d : Nat} (h : digitValue? c = some d) : DigitText [c] d
  | next {front : List Char} {n : Nat} {c : Char} {d : Nat} (hfront : DigitText front n)
      (h : digitValue? c = some d) : DigitText (front ++ [c]) (10 * n + d)
  | underscore {front : List Char} {n : Nat} {c : Char} {d : Nat} (hfront : DigitText front n)
      (h : digitValue? c = some d) : DigitText (front ++ ['_', c]) (10 * n + d)

/-- Digits with a sign in front of them or none, and the integer that they denote. -/
inductive SignedText : List Char → Int → Prop
  | unsigned {cs : List Char} {n : Nat} (h : DigitText cs n) : SignedText cs n
  | plus {cs : List Char} {n : Nat} (h : DigitText cs n) : SignedText ('+' :: cs) n
  | minus {cs : List Char} {n : Nat} (h : DigitText cs n) : SignedText ('-' :: cs) (-n)

/-- A number with characters of a class around it, and the integer that it denotes. -/
inductive IntegerText (skip : Char → Bool) : List Char → Int → Prop
  | intro {before cs after : List Char} {n : Int} (hbefore : ∀ c ∈ before, skip c)
      (h : SignedText cs n) (hafter : ∀ c ∈ after, skip c) :
      IntegerText skip (before ++ (cs ++ after)) n

variable {cs : List Char} {m n : Nat}

/-! ## Digits -/

/-- A digit is read as the next one. -/
theorem readDigitsFrom?_digit {c : Char} {d : Nat} (hc : digitValue? c = some d)
    (rest : List Char) :
    readDigitsFrom? digitValue? m (c :: rest) =
      readDigitsFrom? digitValue? (10 * m + d) rest := by
  rw [readDigitsFrom?.eq_3]
  · rw [hc]
  · rintro c' rest' rfl
    exact absurd hc (by simp [show digitValue? '_' = none from by decide])

/-- An underscore in front of a digit is passed over. -/
theorem readDigitsFrom?_underscore {c : Char} {d : Nat} (hc : digitValue? c = some d)
    (rest : List Char) :
    readDigitsFrom? digitValue? m ('_' :: c :: rest) =
      readDigitsFrom? digitValue? (10 * m + d) rest := by
  rw [readDigitsFrom?, hc]

/-- What is read goes on where it stopped when more text follows. -/
theorem readDigitsFrom?_append (h : readDigitsFrom? digitValue? m cs = some n)
    (more : List Char) :
    readDigitsFrom? digitValue? m (cs ++ more) = readDigitsFrom? digitValue? n more := by
  fun_induction readDigitsFrom? digitValue? m cs with
  | case1 m => rw [Option.some.inj h, List.nil_append]
  | case2 m c rest d hc ih =>
    rw [List.cons_append, List.cons_append, readDigitsFrom?_underscore hc, ih h]
  | case3 m c rest hc => simp at h
  | case4 m c rest _ d hc ih => rw [List.cons_append, readDigitsFrom?_digit hc, ih h]
  | case5 m c rest _ hc => simp at h

/-- What is read behind digits makes a text of digits together with them. -/
theorem DigitText.append {front : List Char} (hfront : DigitText front m)
    (h : readDigitsFrom? digitValue? m cs = some n) : DigitText (front ++ cs) n := by
  fun_induction readDigitsFrom? digitValue? m cs generalizing front with
  | case1 m =>
    rw [List.append_nil, ← Option.some.inj h]
    exact hfront
  | case2 m c rest d hc ih =>
    have hnext := ih (hfront.underscore hc) h
    rwa [List.append_assoc] at hnext
  | case3 m c rest hc => simp at h
  | case4 m c rest _ d hc ih =>
    have hnext := ih (hfront.next hc) h
    rwa [List.append_assoc] at hnext
  | case5 m c rest _ hc => simp at h

theorem readDigits?_eq_some_iff : readDigits? digitValue? cs = some n ↔ DigitText cs n := by
  constructor
  · intro h
    cases cs with
    | nil => simp [readDigits?] at h
    | cons c rest =>
      obtain ⟨d, hc, hrest⟩ := Option.bind_eq_some_iff.1 h
      exact (DigitText.digit hc).append hrest
  · intro h
    induction h with
    | digit hc => rw [readDigits?, hc, Option.bind_some, readDigitsFrom?]
    | @next front n c d _ hc ih =>
      -- the grammar grows at its end, reading starts at the front, where the first digit stands
      cases front with
      | nil => simp [readDigits?] at ih
      | cons x rest =>
        obtain ⟨first, hx, hrest⟩ := Option.bind_eq_some_iff.1 ih
        rw [List.cons_append, readDigits?, hx, Option.bind_some, readDigitsFrom?_append hrest,
          readDigitsFrom?_digit hc, readDigitsFrom?]
    | @underscore front n c d _ hc ih =>
      cases front with
      | nil => simp [readDigits?] at ih
      | cons x rest =>
        obtain ⟨first, hx, hrest⟩ := Option.bind_eq_some_iff.1 ih
        rw [List.cons_append, readDigits?, hx, Option.bind_some, readDigitsFrom?_append hrest,
          readDigitsFrom?_underscore hc, readDigitsFrom?]

/-! ## Signs -/

/-- Digits begin and end with a digit. -/
theorem DigitText.isDecimalDigit_ends (h : DigitText cs n) :
    (∃ c ∈ cs.head?, isDecimalDigit c) ∧ ∃ c ∈ cs.getLast?, isDecimalDigit c := by
  have hdigit : ∀ {c : Char} {d : Nat}, digitValue? c = some d → isDecimalDigit c := by
    intro c d hc
    rw [isDecimalDigit, hc, Option.isSome_some]
  induction h with
  | @digit c d hc => exact ⟨⟨c, rfl, hdigit hc⟩, ⟨c, rfl, hdigit hc⟩⟩
  | @next front n c d _ hc ih =>
    obtain ⟨⟨x, hx, hfirst⟩, -⟩ := ih
    exact ⟨⟨x, by rw [List.head?_append, hx]; rfl, hfirst⟩,
      ⟨c, List.getLast?_concat, hdigit hc⟩⟩
  | @underscore front n c d _ hc ih =>
    obtain ⟨⟨x, hx, hfirst⟩, -⟩ := ih
    exact ⟨⟨x, by rw [List.head?_append, hx]; rfl, hfirst⟩,
      ⟨c, by rw [List.getLast?_append]; rfl, hdigit hc⟩⟩

theorem readSigned?_eq_some_iff {i : Int} :
    readSigned? digitValue? cs = some i ↔ SignedText cs i := by
  constructor
  · intro h
    unfold readSigned? at h
    split at h
    · obtain ⟨k, hk, rfl⟩ := Option.map_eq_some_iff.1 h
      obtain ⟨n, hn, hnk⟩ := Option.bind_eq_some_iff.1 hk
      rw [← Option.some.inj hnk]
      exact .minus (readDigits?_eq_some_iff.1 hn)
    · obtain ⟨n, hn, rfl⟩ := Option.map_eq_some_iff.1 h
      exact .plus (readDigits?_eq_some_iff.1 hn)
    · obtain ⟨n, hn, rfl⟩ := Option.map_eq_some_iff.1 h
      exact .unsigned (readDigits?_eq_some_iff.1 hn)
  · intro h
    cases h with
    | plus h => rw [readSigned?, readDigits?_eq_some_iff.2 h]; rfl
    | minus h => rw [readSigned?, readDigits?_eq_some_iff.2 h]; rfl
    | unsigned h =>
      obtain ⟨⟨c, hhead, hc⟩, -⟩ := h.isDecimalDigit_ends
      rw [readSigned?.eq_3, readDigits?_eq_some_iff.2 h]
      · rfl
      · rintro rest rfl
        exact absurd (Option.some.inj hhead ▸ hc) (by decide)
      · rintro rest rfl
        exact absurd (Option.some.inj hhead ▸ hc) (by decide)

/-! ## White space around a number -/

/-- No digit of any script is white space. -/
theorem not_isWhiteSpace_of_isDecimalDigit {c : Char} (h : isDecimalDigit c) :
    ¬ isWhiteSpace c := by
  have hall : ∀ z ∈ zeroDigits, ∀ k < 10, isWhiteSpace (Char.ofNat (z + k)) = false := by
    decide +kernel
  obtain ⟨d, hd⟩ := Option.isSome_iff_exists.1 h
  obtain ⟨z, hz, -⟩ := Option.map_eq_some_iff.1 hd
  have hbounds := List.find?_some hz
  rw [Bool.and_eq_true, decide_eq_true_eq, decide_eq_true_eq] at hbounds
  have hdigit := hall z (List.mem_of_find?_eq_some hz) (c.toNat - z) (by omega)
  rw [Nat.add_sub_cancel' hbounds.1, Char.ofNat_toNat] at hdigit
  rw [hdigit]
  exact Bool.false_ne_true

theorem SignedText.not_isWhiteSpace_ends {i : Int} (h : SignedText cs i) :
    (∃ c ∈ cs.head?, ¬ isWhiteSpace c) ∧ ∃ c ∈ cs.getLast?, ¬ isWhiteSpace c := by
  have hdigits : ∀ {cs : List Char} {n : Nat}, DigitText cs n →
      (∃ c ∈ cs.head?, ¬ isWhiteSpace c) ∧ ∃ c ∈ cs.getLast?, ¬ isWhiteSpace c := by
    intro cs n h
    obtain ⟨⟨c, hhead, hc⟩, ⟨d, hlast, hd⟩⟩ := h.isDecimalDigit_ends
    exact ⟨⟨c, hhead, not_isWhiteSpace_of_isDecimalDigit hc⟩,
      ⟨d, hlast, not_isWhiteSpace_of_isDecimalDigit hd⟩⟩
  have hsigned : ∀ {sign : Char} {cs : List Char} {n : Nat}, ¬ isWhiteSpace sign →
      DigitText cs n → (∃ c ∈ (sign :: cs).head?, ¬ isWhiteSpace c) ∧
        ∃ c ∈ (sign :: cs).getLast?, ¬ isWhiteSpace c := by
    intro sign cs n hsign h
    obtain ⟨-, ⟨d, hlast, hd⟩⟩ := hdigits h
    refine ⟨⟨sign, rfl, hsign⟩, ⟨d, ?_, hd⟩⟩
    rw [List.getLast?_cons, hlast]
    rfl
  cases h with
  | unsigned h => exact hdigits h
  | plus h => exact hsigned (by decide) h
  | minus h => exact hsigned (by decide) h

section Trim

variable {skip : Char → Bool} {before after : List Char}

/-- What stands between characters of a class, and neither begins nor ends with one of them, is left
when they are dropped. -/
theorem trimBy_append (hbefore : ∀ c ∈ before, skip c) (hafter : ∀ c ∈ after, skip c)
    (hhead : ∃ c ∈ cs.head?, ¬ skip c) (hlast : ∃ c ∈ cs.getLast?, ¬ skip c) :
    trimBy skip (before ++ (cs ++ after)) = cs := by
  obtain ⟨first, hfirst, hfirst'⟩ := hhead
  obtain ⟨last, hlast, hlast'⟩ := hlast
  have hstop : ∀ c ∈ (cs ++ after).head?, ¬ skip c := by
    intro c hc
    rw [List.head?_append, hfirst, Option.some_or, Option.mem_some_iff] at hc
    exact hc ▸ hfirst'
  have hstop' : ∀ c ∈ cs.reverse.head?, ¬ skip c := by
    intro c hc
    rw [List.head?_reverse, hlast, Option.mem_some_iff] at hc
    exact hc ▸ hlast'
  have hafter' : ∀ c ∈ after.reverse, skip c := fun c hc => hafter c (List.mem_reverse.1 hc)
  rw [trimBy, dropWhile_append_of_stop hbefore hstop, List.reverse_append,
    dropWhile_append_of_stop hafter' hstop', List.reverse_reverse]

end Trim

/-- Exactly the texts of integers with white space around them are read, each as its integer. -/
theorem readInteger?_eq_some_iff {i : Int} :
    readInteger? cs = some i ↔ IntegerText isWhiteSpace cs i := by
  constructor
  · intro h
    obtain ⟨before, after, hcs, hbefore, hafter⟩ := exists_append_trimBy isWhiteSpace cs
    rw [hcs]
    exact .intro hbefore (readSigned?_eq_some_iff.1 h) hafter
  · rintro ⟨hbefore, h, hafter⟩
    obtain ⟨hhead, hlast⟩ := h.not_isWhiteSpace_ends
    rw [readInteger?, trimBy_append hbefore hafter hhead hlast]
    exact readSigned?_eq_some_iff.2 h

/-- No colon stands in the text of an integer. -/
theorem IntegerText.colon_not_mem {skip : Char → Bool} (hskip : ¬ skip ':') {i : Int}
    (h : IntegerText skip cs i) : ':' ∉ cs := by
  have hdigits : ∀ {cs : List Char} {n : Nat}, DigitText cs n → ':' ∉ cs := by
    have hcolon : ∀ {c : Char} {d : Nat}, digitValue? c = some d → ':' ≠ c := by
      rintro c d hc rfl
      exact absurd hc (by simp [show digitValue? ':' = none from by decide])
    intro cs n h
    induction h with
    | digit hc => simp [hcolon hc]
    | next _ hc ih => simp [ih, hcolon hc]
    | underscore _ hc ih => simp [ih, hcolon hc]
  obtain ⟨hbefore, hsigned, hafter⟩ := h
  rw [List.mem_append, List.mem_append]
  rintro (hmem | hmem | hmem)
  · exact hskip (hbefore _ hmem)
  · cases hsigned with
    | unsigned h => exact hdigits h hmem
    | plus h => exact hdigits h (List.mem_of_ne_of_mem (by decide) hmem)
    | minus h => exact hdigits h (List.mem_of_ne_of_mem (by decide) hmem)
  · exact hskip (hafter _ hmem)

/-! ## Numbers written down -/

/-- Digits, and the same with single underscores between some of them. -/
inductive Underscored : List Char → List Char → Prop
  | last (c : Char) : Underscored [c] [c]
  | next (c : Char) {ds cs : List Char} (h : Underscored ds cs) : Underscored (c :: ds) (c :: cs)
  | underscore (c : Char) {ds cs : List Char} (h : Underscored ds cs) :
      Underscored (c :: ds) (c :: '_' :: cs)

/-- The first digit stands in front. -/
theorem Underscored.exists_cons {ds : List Char} (h : Underscored ds cs) :
    ∃ c ds' cs', ds = c :: ds' ∧ cs = c :: cs' := by
  cases h with
  | last c => exact ⟨c, [], [], rfl, rfl⟩
  | next c _ => exact ⟨c, _, _, rfl, rfl⟩
  | underscore c _ => exact ⟨c, _, _, rfl, rfl⟩

theorem Underscored.refl {ds : List Char} (h : ds ≠ []) : Underscored ds ds := by
  induction ds with
  | nil => exact absurd rfl h
  | cons c ds ih =>
    cases ds with
    | nil => exact .last c
    | cons d ds => exact .next c (ih (List.cons_ne_nil d ds))

/-- A way of writing a number down: its decimal digits with zeros in front of them and single
underscores between them, a plus sign or none, and spaces or tabs around it all. -/
structure Written (n : Nat) where
  before : List Char
  plus : Bool
  zeros : Nat
  digits : List Char
  after : List Char
  mem_before : ∀ c ∈ before, c = ' ' ∨ c = '\t'
  underscored : Underscored (List.replicate zeros '0' ++ (toString n).toList) digits
  mem_after : ∀ c ∈ after, c = ' ' ∨ c = '\t'

namespace Written

/-- The text that is written. -/
def text {n : Nat} (w : Written n) : List Char :=
  w.before ++ ((if w.plus then '+' :: w.digits else w.digits) ++ w.after)

/-- A number written in its decimal digits alone. -/
def plain (n : Nat) : Written n where
  before := []
  plus := false
  zeros := 0
  digits := (toString n).toList
  after := []
  mem_before := by simp
  underscored := Underscored.refl (by
    show [] ++ n.repr.toList ≠ []
    rw [List.nil_append, Nat.toList_repr]
    exact Nat.toDigits_ne_nil)
  mem_after := by simp

theorem text_plain (n : Nat) : (plain n).text = (toString n).toList := by
  simp [text, plain]

end Written

theorem digitValue?_of_isDigit {c : Char} (h : c.isDigit) :
    digitValue? c = some (c.toNat - '0'.toNat) := by
  obtain ⟨hle, hge⟩ := Char.isDigit_iff_toNat.1 h
  have hzeros : zeroDigits = '0'.toNat :: zeroDigits.tail := rfl
  have hfound : (decide ('0'.toNat ≤ c.toNat) && decide (c.toNat ≤ '0'.toNat + 9)) = true := by
    rw [Bool.and_eq_true, decide_eq_true_eq, decide_eq_true_eq]
    exact ⟨hle, hge⟩
  rw [digitValue?, hzeros,
    List.find?_cons_of_pos (p := fun z => z ≤ c.toNat && c.toNat ≤ z + 9) hfound, Option.map_some]

/-- Underscores make no difference to the number that digits denote. -/
theorem Underscored.readDigitsFrom?_eq {ds : List Char} (h : Underscored ds cs)
    (hds : ∀ c ∈ ds, c.isDigit) (m : Nat) :
    readDigitsFrom? digitValue? m cs = some (Nat.ofDigitChars 10 ds m) := by
  induction h generalizing m with
  | last c =>
    rw [readDigitsFrom?_digit (digitValue?_of_isDigit (hds c List.mem_cons_self)),
      readDigitsFrom?, Nat.ofDigitChars_cons]
    rfl
  | next c _ ih =>
    rw [List.forall_mem_cons] at hds
    rw [readDigitsFrom?_digit (digitValue?_of_isDigit hds.1), ih hds.2, Nat.ofDigitChars_cons]
  | @underscore c ds cs h ih =>
    rw [List.forall_mem_cons] at hds
    -- an underscore counts only together with the digit behind it
    obtain ⟨d, ds, cs, rfl, rfl⟩ := h.exists_cons
    have hd := digitValue?_of_isDigit (hds.2 d List.mem_cons_self)
    have hrest := ih hds.2 (10 * m + (c.toNat - '0'.toNat))
    rw [readDigitsFrom?_digit hd] at hrest
    rw [readDigitsFrom?_digit (digitValue?_of_isDigit hds.1), readDigitsFrom?_underscore hd, hrest,
      ← Nat.ofDigitChars_cons]

theorem Underscored.digitText {ds : List Char} (h : Underscored ds cs)
    (hds : ∀ c ∈ ds, c.isDigit) : DigitText cs (Nat.ofDigitChars 10 ds 0) := by
  have hread := h.readDigitsFrom?_eq hds 0
  obtain ⟨c, ds', cs', rfl, rfl⟩ := h.exists_cons
  have hc := digitValue?_of_isDigit (hds c List.mem_cons_self)
  rw [readDigitsFrom?_digit hc, Nat.mul_zero, Nat.zero_add] at hread
  rw [← readDigits?_eq_some_iff, readDigits?, hc, Option.bind_some, hread]

/-- A number is denoted however it is written. -/
theorem Written.integerText {n : Nat} (w : Written n) : IntegerText isWhiteSpace w.text n := by
  have hblank : ∀ {cs : List Char}, (∀ c ∈ cs, c = ' ' ∨ c = '\t') → ∀ c ∈ cs, isWhiteSpace c := by
    intro cs h c hc
    rcases h c hc with rfl | rfl
    · rfl
    · rfl
  have hisDigit : ∀ c ∈ List.replicate w.zeros '0' ++ (toString n).toList, c.isDigit := by
    rw [List.forall_mem_append]
    exact ⟨fun c hc => List.eq_of_mem_replicate hc ▸ rfl, isDigit_of_mem_toString⟩
  have hrepr : (toString n).toList = Nat.toDigits 10 n := Nat.toList_repr
  have hdigits := w.underscored.digitText hisDigit
  rw [hrepr, Nat.ofDigitChars_append, Nat.ofDigitChars_replicate_zero, Nat.mul_zero,
    Nat.ofDigitChars_ten_toDigits] at hdigits
  refine .intro (hblank w.mem_before) ?_ (hblank w.mem_after)
  split
  · exact .plus hdigits
  · exact .unsigned hdigits

end MarkupOutline.Text
