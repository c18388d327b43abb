import Mathlib.Data.List.TakeWhile
import MarkupOutline.CommandLine.Place
import MarkupOutline.Proofs.IntegerText

/-!
# Texts that denote places

A place is written as a line number, alone or with a colon and a column number behind it
(`PlaceText`). The texts of places whose numbers count from 1 are read, each as its place, and all
others are refused, for one of two reasons (`readPlace_placeText`).
-/

namespace MarkupOutline.CommandLine

open Text

/-! ## The grammar -/

/-- The text of a line number, or that and the text of a column number with a colon between them,
the first one in the whole. The column of a line alone is the first. `Denotes` tells which texts
denote which integers. -/
inductive PlaceText (Denotes : List Char → Int → Prop) : List Char → Int → Int → Prop
  | line {cs : List Char} {l : Int} (hcolon : ':' ∉ cs) (hline : Denotes cs l) :
      PlaceText Denotes cs l 1
  | lineColumn {cs ds : List Char} {l c : Int} (hcolon : ':' ∉ cs) (hline : Denotes cs l)
      (hcolumn : Denotes ds c) : PlaceText Denotes (cs ++ ':' :: ds) l c

variable {Denotes : List Char → Int → Prop} {cs : List Char} {l c : Int}

/-! ## Taking a text apart -/

theorem forall_ne_colon (h : ':' ∉ cs) : ∀ x ∈ cs, decide (x ≠ ':') = true := by
  intro x hx
  rw [decide_eq_true_eq]
  rintro rfl
  exact h hx

theorem columnPart?_of_not_mem (h : ':' ∉ cs) :
    cs.takeWhile (· ≠ ':') = cs ∧ columnPart? cs = none := by
  refine ⟨List.takeWhile_eq_self_iff.2 (forall_ne_colon h), ?_⟩
  rw [columnPart?, List.dropWhile_eq_nil_iff.2 (forall_ne_colon h)]

theorem columnPart?_append_cons {front : List Char} (h : ':' ∉ front) (behind : List Char) :
    (front ++ ':' :: behind).takeWhile (· ≠ ':') = front ∧
      columnPart? (front ++ ':' :: behind) = some behind := by
  have hstop : ∀ y ∈ (':' :: behind).head?, ¬ decide (y ≠ ':') = true :=
    forall_head?_cons (by decide) behind
  refine ⟨takeWhile_append_of_stop (forall_ne_colon h) hstop, ?_⟩
  rw [columnPart?, dropWhile_append_of_stop (forall_ne_colon h) hstop]

/-- The numbers of a place are those of what stands before its first colon and behind it. -/
theorem placeText_iff :
    PlaceText Denotes cs l c ↔
      Denotes (cs.takeWhile (· ≠ ':')) l ∧
        match columnPart? cs with
        | some column => Denotes column c
        | none => c = 1 := by
  constructor
  · rintro (⟨hcolon, hline⟩ | ⟨hcolon, hline, hcolumn⟩)
    · obtain ⟨hfront, hpart⟩ := columnPart?_of_not_mem hcolon
      rw [hfront, hpart]
      exact ⟨hline, rfl⟩
    · obtain ⟨hfront, hpart⟩ := columnPart?_append_cons hcolon _
      rw [hfront, hpart]
      exact ⟨hline, hcolumn⟩
  · rintro ⟨hline, hcolumn⟩
    by_cases hcolon : ':' ∈ cs
    · obtain ⟨front, behind, rfl, hfront⟩ := List.eq_append_cons_of_mem hcolon
      obtain ⟨htake, hpart⟩ := columnPart?_append_cons hfront behind
      rw [htake] at hline
      rw [hpart] at hcolumn
      exact .lineColumn hfront hline hcolumn
    · obtain ⟨htake, hpart⟩ := columnPart?_of_not_mem hcolon
      rw [htake] at hline
      rw [hpart] at hcolumn
      exact hcolumn ▸ .line hcolon hline

/-! ## Reading places -/

/-- The line and the column number of a place are read if both are integers. -/
theorem readPlace_of_placeText {value : String}
    (h : PlaceText (IntegerText isWhiteSpace) value.toList l c) :
    readPlace value =
      if l < 1 ∨ c < 1 then .error (.belowOne value) else .ok ⟨l - 1, c - 1⟩ := by
  obtain ⟨hline, hcolumn⟩ := placeText_iff.1 h
  unfold readPlace
  dsimp only
  rw [readInteger?_eq_some_iff.2 hline]
  cases hpart : columnPart? value.toList with
  | none =>
    rw [hpart] at hcolumn
    rw [hcolumn]
  | some column =>
    rw [hpart] at hcolumn
    dsimp only
    rw [readInteger?_eq_some_iff.2 hcolumn]

/-- What is no place is refused as malformed. -/
theorem readPlace_of_not_placeText {value : String}
    (h : ∀ l c, ¬ PlaceText (IntegerText isWhiteSpace) value.toList l c) :
    readPlace value = .error (.malformed value) := by
  simp only [placeText_iff, ← readInteger?_eq_some_iff] at h
  unfold readPlace
  dsimp only
  cases hline : readInteger? (value.toList.takeWhile (· ≠ ':')) with
  | none => rfl
  | some l =>
    cases hpart : columnPart? value.toList with
    | none => exact absurd ⟨hline, by rw [hpart]⟩ (h l 1)
    | some column =>
      dsimp only
      cases hcolumn : readInteger? column with
      | none => rfl
      | some c => exact absurd ⟨hline, by rw [hpart]; exact hcolumn⟩ (h l c)

/-- Reading a text has one of three outcomes. -/
theorem readPlace_cases (value : String) :
    (∃ l c, PlaceText (IntegerText isWhiteSpace) value.toList l c ∧ 1 ≤ l ∧ 1 ≤ c ∧
      readPlace value = .ok ⟨l - 1, c - 1⟩) ∨
    (∃ l c, PlaceText (IntegerText isWhiteSpace) value.toList l c ∧ (l < 1 ∨ c < 1) ∧
      readPlace value = .error (.belowOne value)) ∨
    (∀ l c, ¬ PlaceText (IntegerText isWhiteSpace) value.toList l c) ∧
      readPlace value = .error (.malformed value) := by
  by_cases hplace : ∃ l c, PlaceText (IntegerText isWhiteSpace) value.toList l c
  · obtain ⟨l, c, h⟩ := hplace
    have hread := readPlace_of_placeText h
    by_cases hbelow : l < 1 ∨ c < 1
    · rw [if_pos hbelow] at hread
      exact .inr (.inl ⟨l, c, h, hbelow, hread⟩)
    · rw [if_neg hbelow] at hread
      exact .inl ⟨l, c, h, by omega, by omega, hread⟩
  · have hnone : ∀ l c, ¬ PlaceText (IntegerText isWhiteSpace) value.toList l c :=
      fun l c h => hplace ⟨l, c, h⟩
    exact .inr (.inr ⟨hnone, readPlace_of_not_placeText hnone⟩)

/-- The wordings of the two faults differ in their first letter. -/
theorem PlaceFault.message_ne (value other : String) :
    PlaceFault.message (.malformed value) ≠ PlaceFault.message (.belowOne other) := by
  intro h
  have hwording : "Expected LINE:COL, got " ++ quoted value =
      "LINE and COL are 1-based, got " ++ quoted other := h
  have hmalformed : "Expected LINE:COL, got ".toList.head? = some 'E' := by decide
  have hbelowOne : "LINE and COL are 1-based, got ".toList.head? = some 'L' := by decide
  have hhead := congrArg (fun s : String => s.toList.head?) hwording
  simp only [String.toList_append, List.head?_append, hmalformed, hbelowOne, Option.some_or,
    Option.some.injEq] at hhead
  exact absurd hhead (by decide)

variable {value : String}

/-- A text is read as a place exactly if its two numbers count from 1. -/
theorem readPlace_eq_ok_iff {p : Position} :
    readPlace value = .ok p ↔
      ∃ l c, PlaceText (IntegerText isWhiteSpace) value.toList l c ∧ 1 ≤ l ∧ 1 ≤ c ∧
        p = ⟨l - 1, c - 1⟩ := by
  constructor
  · intro hok
    rcases readPlace_cases value with ⟨l, c, h, hl, hc, hread⟩ | ⟨_, _, _, _, hread⟩ | ⟨_, hread⟩
    · exact ⟨l, c, h, hl, hc, Except.ok.inj (hok.symm.trans hread)⟩
    · simp [hread] at hok
    · simp [hread] at hok
  · rintro ⟨l, c, h, hl, hc, rfl⟩
    rw [readPlace_of_placeText h, if_neg (by omega)]

/-- A text is refused as malformed exactly if one of its parts is no integer. -/
theorem exists_malformed_iff :
    (∃ fault, readPlace value = .error fault ∧
        fault.message = "Expected LINE:COL, got " ++ quoted value) ↔
      ∀ l c, ¬ PlaceText (IntegerText isWhiteSpace) value.toList l c := by
  constructor
  · rintro ⟨fault, hfault, hmessage⟩
    rcases readPlace_cases value with ⟨_, _, _, _, _, hread⟩ | ⟨_, _, _, _, hread⟩ | ⟨h, _⟩
    · simp [hread] at hfault
    · rw [← Except.error.inj (hread.symm.trans hfault)] at hmessage
      exact absurd hmessage.symm (PlaceFault.message_ne value value)
    · exact h
  · intro hnone
    exact ⟨.malformed value, readPlace_of_not_placeText hnone, rfl⟩

/-- A text is refused for its numbers exactly if both are integers and one is less than 1. -/
theorem exists_belowOne_iff :
    (∃ fault, readPlace value = .error fault ∧
        fault.message = "LINE and COL are 1-based, got " ++ quoted value) ↔
      ∃ l c, PlaceText (IntegerText isWhiteSpace) value.toList l c ∧ (l < 1 ∨ c < 1) := by
  constructor
  · rintro ⟨fault, hfault, hmessage⟩
    rcases readPlace_cases value with ⟨_, _, _, _, _, hread⟩ | ⟨l, c, h, hbelow, _⟩ | ⟨_, hread⟩
    · simp [hread] at hfault
    · exact ⟨l, c, h, hbelow⟩
    · rw [← Except.error.inj (hread.symm.trans hfault)] at hmessage
      exact absurd hmessage (PlaceFault.message_ne value value)
  · rintro ⟨l, c, h, hbelow⟩
    exact ⟨.belowOne value, by rw [readPlace_of_placeText h, if_pos hbelow], rfl⟩

/-- A place is read however its two numbers are written. -/
theorem readPlace_written (l c : Nat) (line : Written (l + 1)) (column : Written (c + 1)) :
    readPlace (String.ofList (line.text ++ ':' :: column.text)) = .ok ⟨l, c⟩ := by
  have hcolon := line.integerText.colon_not_mem (by decide)
  have hplace := PlaceText.lineColumn hcolon line.integerText column.integerText
  rw [← String.toList_ofList (l := line.text ++ ':' :: column.text)] at hplace
  rw [readPlace_of_placeText hplace, if_neg (by omega)]
  simp

/-- Most plainly they are written in their decimal digits alone. -/
theorem readPlace_toString (l c : Nat) :
    readPlace (toString (l + 1) ++ ":" ++ toString (c + 1)) = .ok ⟨l, c⟩ := by
  have htext : toString (l + 1) ++ ":" ++ toString (c + 1) =
      String.ofList ((Written.plain (l + 1)).text ++ ':' :: (Written.plain (c + 1)).text) := by
    rw [Written.text_plain, Written.text_plain, ← String.toList_inj, String.toList_ofList,
      String.toList_append, String.toList_append, List.append_assoc]
    rfl
  rw [htext, readPlace_written]

/-- A text is read as a place exactly if its line number and its column number are integers that
count from 1, and then as the place that they give, counted from 0. Otherwise it is refused, and the
wording tells whether one of the two is no integer or both are and one of them is less than 1. So
every place is read however its numbers are written in decimal digits. -/
theorem readPlace_placeText :
    (∀ value : String,
      (∀ p, readPlace value = .ok p ↔
        ∃ l c, PlaceText (IntegerText isWhiteSpace) value.toList l c ∧ 1 ≤ l ∧ 1 ≤ c ∧
          p = ⟨l - 1, c - 1⟩) ∧
      ((∃ fault, readPlace value = .error fault ∧
          fault.message = "Expected LINE:COL, got " ++ quoted value) ↔
        ∀ l c, ¬ PlaceText (IntegerText isWhiteSpace) value.toList l c) ∧
      ((∃ fault, readPlace value = .error fault ∧
          fault.message = "LINE and COL are 1-based, got " ++ quoted value) ↔
        ∃ l c, PlaceText (IntegerText isWhiteSpace) value.toList l c ∧ (l < 1 ∨ c < 1))) ∧
    ∀ l c : Nat,
      readPlace (toString (l + 1) ++ ":" ++ toString (c + 1)) = .ok ⟨l, c⟩ ∧
      ∀ (line : Written (l + 1)) (column : Written (c + 1)),
        readPlace (String.ofList (line.text ++ ':' :: column.text)) = .ok ⟨l, c⟩ :=
  ⟨fun _ => ⟨fun _ => readPlace_eq_ok_iff, exists_malformed_iff, exists_belowOne_iff⟩,
    fun l c => ⟨readPlace_toString l c, readPlace_written l c⟩⟩

/-- Signs, zeros, underscores, white space and the digits of any script go together. -/
example : readPlace "\t+0_1\u3000:\u0663" = .ok ⟨0, 2⟩ := by decide +kernel

/-- White space around a number if the information separators, which are blank, counted as such in
a text that is not all ASCII. -/
def blankAround (cs : List Char) (c : Char) : Bool :=
  if cs.all (·.toNat < 0x80) then isWhiteSpace c else isBlank c

/-- They do not: with one of them in front, a digit of another script is no place. -/
theorem readPlace_information_separator :
    (∃ l c, PlaceText (fun cs => IntegerText (blankAround cs) cs) "\u001C\u0663".toList l c ∧
      1 ≤ l ∧ 1 ≤ c) ∧
    readPlace "\u001C\u0663" = .error (.malformed "\u001C\u0663") := by
  have hdigit : DigitText ['\u0663'] 3 := .digit (by decide +kernel)
  have hspace : ∀ c ∈ ['\u001C'], blankAround ['\u001C', '\u0663'] c :=
    List.forall_mem_singleton.2 (by decide)
  refine ⟨⟨3, 1, .line (by decide) ?_, by decide, by decide⟩, by decide +kernel⟩
  exact .intro hspace (.unsigned hdigit) (by simp)

end MarkupOutline.CommandLine
