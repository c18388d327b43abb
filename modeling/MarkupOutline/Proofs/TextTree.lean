import MarkupOutline.Proofs.ErrorBoundary
import MarkupOutline.Proofs.Writable

/-!
# Outlines as text

An outline rendered as text has one line for each element (`render_read`): whatever the text that
was read, no label and no detail can end a line, since the only blanks in them are spaces.
-/

namespace MarkupOutline

open Forest

namespace Text

/-! ## Text whose only blanks are spaces -/

/-- The only blanks in a text are spaces. -/
def OnlySpaces (cs : List Char) : Prop :=
  ∀ c ∈ cs, isBlank c → c = ' '

instance : DecidablePred OnlySpaces := fun cs =>
  List.decidableBAll (fun c => isBlank c → c = ' ') cs

variable {xs ys : List Char}

theorem onlySpaces_append_iff : OnlySpaces (xs ++ ys) ↔ OnlySpaces xs ∧ OnlySpaces ys :=
  List.forall_mem_append

theorem OnlySpaces.feed_not_mem (h : OnlySpaces xs) : '\n' ∉ xs := fun hmem =>
  absurd (h _ hmem rfl) (by decide)

theorem onlySpaces_of_not_isBlank (h : ∀ c ∈ xs, ¬ isBlank c) : OnlySpaces xs := fun c hc hblank =>
  absurd hblank (h c hc)

theorem onlySpaces_replicate (n : Nat) : OnlySpaces (List.replicate n ' ') := fun _ hc _ =>
  List.eq_of_mem_replicate hc

/-- No blank stands in the digits of a number. -/
theorem not_isBlank_of_mem_toString {n : Int} : ∀ c ∈ (toString n).toList, ¬ isBlank c := by
  have hnat : ∀ n : Nat, ∀ c ∈ (toString n).toList, ¬ isBlank c := by
    intro n c hc
    have hdigit := isDigit_of_mem_toString c hc
    exact Name.not_isBlank_of_isPart (by simp [Name.isPart, Char.isAlphanum, hdigit])
  cases n with
  | ofNat n => exact hnat n
  | negSucc n =>
    show ∀ c ∈ ("-" ++ toString (n + 1)).toList, ¬ isBlank c
    rw [String.toList_append, List.forall_mem_append]
    exact ⟨by simp [isBlank], hnat (n + 1)⟩

end Text

open Text

/-! ## Labels and tags -/

theorem Attributes.exists_mem_of_shown? {a : Attributes} {key value : String}
    (h : a.shown? key = some value) : ∃ entry ∈ a.entries, entry.2 = value := by
  obtain ⟨hget, _⟩ := Option.filter_eq_some_iff.1 h
  obtain ⟨before, behind, hentries, _⟩ := List.lookup_eq_some_iff.1 hget
  exact ⟨(key, value), by simp [hentries], rfl⟩

namespace Element

/-- A label is the value of an attribute, or a tag in square brackets, alone or with such a value. -/
theorem labelOf_cases (tag : String) (a : Attributes) :
    (∃ entry ∈ a.entries, labelOf tag a = entry.2) ∨
      (∃ entry ∈ a.entries, labelOf tag a = "[" ++ tag ++ " \"" ++ entry.2 ++ "\"]") ∨
      labelOf tag a = "[" ++ tag ++ "]" := by
  unfold labelOf
  split
  · next name hname =>
    obtain ⟨key, _, hshown⟩ := List.exists_of_findSome?_eq_some hname
    obtain ⟨entry, hentry, hvalue⟩ := Attributes.exists_mem_of_shown? hshown
    exact .inl ⟨entry, hentry, hvalue.symm⟩
  · split
    · next content hcontent =>
      obtain ⟨key, _, hshown⟩ := List.exists_of_findSome?_eq_some hcontent
      obtain ⟨entry, hentry, hvalue⟩ := Attributes.exists_mem_of_shown? hshown
      exact .inr (.inl ⟨entry, hentry, by rw [hvalue]⟩)
    · exact .inr (.inr rfl)

variable {e : Element}

theorem Writable.onlySpaces_tag (h : e.Writable) : OnlySpaces e.tag.toList := by
  obtain ⟨n, hn⟩ := h.tag
  rw [hn, Markup.NameText.name, String.toList_ofList]
  exact onlySpaces_of_not_isBlank n.not_isBlank_of_mem_chars

theorem Writable.onlySpaces_label (h : e.Writable) : OnlySpaces e.label.toList := by
  have htag := h.onlySpaces_tag
  rw [h.label]
  rcases labelOf_cases e.tag e.attributes with
    ⟨entry, hentry, hlabel⟩ | ⟨entry, hentry, hlabel⟩ | hlabel
  · rw [hlabel]
    exact (h.attributes entry hentry).blank
  · have hvalue : OnlySpaces entry.2.toList := (h.attributes entry hentry).blank
    rw [hlabel]
    simp only [String.toList_append, onlySpaces_append_iff]
    exact ⟨⟨⟨⟨by decide, htag⟩, by decide⟩, hvalue⟩, by decide⟩
  · rw [hlabel]
    simp only [String.toList_append, onlySpaces_append_iff]
    exact ⟨⟨by decide, htag⟩, by decide⟩

end Element

/-! ## Lines of an outline -/

namespace Outline

variable {lineNumbers : Bool} {e : Element} {s : Symbol} {outline : Forest Symbol}

/-- A symbol that fits on a line: nothing in its name or its detail ends one. -/
structure Symbol.OneLine (s : Symbol) : Prop where
  name : OnlySpaces s.name.toList
  detail : OnlySpaces s.detail.toList

theorem Symbol.oneLine_ofElement (h : e.Writable) : (Symbol.ofElement lineNumbers e).OneLine where
  name := h.onlySpaces_label
  detail := by
    have htag := h.onlySpaces_tag
    cases lineNumbers with
    | false => exact htag
    | true =>
      show OnlySpaces (e.tag ++ " (line " ++ toString e.lineNumber ++ ")").toList
      simp only [String.toList_append, onlySpaces_append_iff]
      exact ⟨⟨⟨htag, by decide⟩, onlySpaces_of_not_isBlank not_isBlank_of_mem_toString⟩, by decide⟩

theorem Symbol.OneLine.onlySpaces_line (h : s.OneLine) (level : Int) :
    OnlySpaces (line level s).toList := by
  simp only [line, String.toList_append, String.toList_ofList, onlySpaces_append_iff]
  exact ⟨⟨⟨⟨onlySpaces_replicate _, h.name⟩, by decide⟩, h.detail⟩, by decide⟩

/-- The lines of an outline, each at its level. -/
def lines (indent : Int) (outline : Forest Symbol) : List (List Char) :=
  (walk outline).map fun (depth, t) => (line (indent + depth) t.value).toList

theorem onlySpaces_of_mem_lines (h : ∀ s ∈ values outline, s.OneLine) (indent : Int) :
    ∀ l ∈ lines indent outline, OnlySpaces l := by
  rw [lines, List.forall_mem_map]
  intro x hx
  have hvalue : x.2.value ∈ values outline := List.mem_map_of_mem hx
  exact (h _ hvalue).onlySpaces_line _

theorem toList_render (indent : Int) (outline : Forest Symbol) :
    (render indent outline).toList = ['\n'].intercalate (lines indent outline) := by
  rw [render, String.toList_intercalate, List.map_map]
  rfl

/-- Symbols that fit on a line each make one line of their own. -/
theorem splitOn_render (h : ∀ s ∈ values outline, s.OneLine) (hne : outline ≠ [])
    (indent : Int) : (render indent outline).toList.splitOn '\n' = lines indent outline := by
  rw [toList_render]
  refine List.splitOn_intercalate '\n' (fun l hl => ?_) ?_
  · exact (onlySpaces_of_mem_lines h indent l hl).feed_not_mem
  · cases outline with
    | nil => exact absurd rfl hne
    | cons t ts => simp [lines, walk]

end Outline

/-! ## Lines of a listing -/

namespace Listing

/-- The line that shows an entry of a listing in a text tree whose roots stand at the level
`indent`. -/
def treeLine (lineNumbers : Bool) (indent : Int) (entry : Entry) : List Char :=
  let detail := entry.tag ++ if lineNumbers then " (line " ++ toString entry.line ++ ")" else ""
  List.replicate (4 * max 0 (indent + entry.depth)).toNat ' ' ++
    (entry.label ++ "  (" ++ detail ++ ")").toList

theorem treeLine_ofElement (lineNumbers : Bool) (indent : Int) (depth : Nat) (e : Element) :
    treeLine lineNumbers indent (Entry.ofElement depth e) =
      (Outline.line (indent + depth) (Outline.Symbol.ofElement lineNumbers e)).toList := by
  -- above the root level there is nothing to go in by
  have hlevel : (4 * max 0 (indent + depth)).toNat = (4 * (indent + depth)).toNat := by omega
  have hdetail := (Outline.shows_ofElement lineNumbers e).detail
  rw [treeLine, Outline.line, hdetail]
  simp only [String.toList_append, String.toList_ofList, List.append_assoc]
  rw [← hlevel]
  rfl

/-- The outline of a forest has a line for each entry of its listing. -/
theorem lines_ofForest (lineNumbers : Bool) (indent : Int) (forest : Forest Element) :
    Outline.lines indent (Outline.ofForest lineNumbers forest) =
      (ofForest forest).map (treeLine lineNumbers indent) := by
  rw [Outline.lines, Outline.ofForest_eq_map, walk, walkFrom_map, ofForest, walk, List.map_map,
    List.map_map]
  exact List.map_congr_left fun x _ => (treeLine_ofElement lineNumbers indent x.1 x.2.value).symm

end Listing

/-! ## The text tree of what is read -/

/-- The text tree of the elements of any text has one line for each of them, in the order and at
the depths of their listing, and no blank in it but spaces and the line feeds between these
lines. -/
theorem render_read (text : String) (lineNumbers : Bool) (indent : Int) :
    ∃ forest entries, (Markup.read false text).outcome = .ok forest ∧
      Listing.ofForest? forest = .ok entries ∧ (forest ≠ [] →
        let tree := (Outline.render indent (Outline.ofForest lineNumbers forest)).toList
        (∀ line ∈ tree.splitOn '\n', OnlySpaces line) ∧
          (tree.splitOn '\n').length = count forest ∧
          tree.splitOn '\n' = entries.map (Listing.treeLine lineNumbers indent)) := by
  obtain ⟨forest, hforest⟩ := Markup.exists_map_sketchOf_eq_prune text
  have hread := Markup.outcome_read_false hforest
  obtain ⟨entries, hentries⟩ := Markup.exists_listing_of_outcome_read hread
  refine ⟨forest, entries, hread, hentries, fun hne => ?_⟩
  have hfits : ∀ s ∈ values (Outline.ofForest lineNumbers forest), s.OneLine := by
    rw [Outline.ofForest_eq_map, values_map, List.forall_mem_map]
    exact fun e he => Outline.Symbol.oneLine_ofElement (Markup.writable_of_read hforest he)
  have houtline : Outline.ofForest lineNumbers forest ≠ [] := by
    cases forest with
    | nil => exact absurd rfl hne
    | cons t ts => simp [Outline.ofForest_eq_map]
  have hlines := Outline.splitOn_render hfits houtline indent
  have hlisting := (Listing.ofForest?_eq_ok_iff.1 hentries).2
  refine ⟨?_, ?_, ?_⟩
  · rw [hlines]
    exact Outline.onlySpaces_of_mem_lines hfits indent
  · rw [hlines, Outline.lines, List.length_map, Outline.ofForest_eq_map, walk, walkFrom_map,
      List.length_map, count, walk]
  · rw [hlines, Listing.lines_ofForest, hlisting]

/-- A name that is broken at a line separator, a line feed and a tab stands on one line of the
tree. -/
theorem render_read_separator :
    ∃ forest, (Markup.read false "<A x:Name='p\u2028q\n\tr'><B><C/></B></A>").outcome = .ok forest ∧
      (Outline.render (-1) (Outline.ofForest true forest)).toList.splitOn '\n' =
        ["p q r  (A (line 1))".toList, "[B]  (B (line 2))".toList,
          "    [C]  (C (line 2))".toList] := by
  obtain ⟨forest, entries, hread, hentries, hlines⟩ :=
    render_read "<A x:Name='p\u2028q\n\tr'><B><C/></B></A>" true (-1)
  have hvalue : (Markup.read false "<A x:Name='p\u2028q\n\tr'><B><C/></B></A>").outcome.toOption.map
      (fun forest => (forest.isEmpty, (Listing.ofForest? forest).toOption.map
        (List.map (Listing.treeLine true (-1))))) =
      some (false, some ["p q r  (A (line 1))".toList, "[B]  (B (line 2))".toList,
        "    [C]  (C (line 2))".toList]) := by
    decide +kernel
  rw [hread] at hvalue
  simp only [Except.toOption, Option.map_some, hentries, Option.some.injEq, Prod.mk.injEq,
    List.isEmpty_eq_false_iff] at hvalue
  exact ⟨forest, hread, (hlines hvalue.1).2.2.trans hvalue.2⟩

end MarkupOutline
