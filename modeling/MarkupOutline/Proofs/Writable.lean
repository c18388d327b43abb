import MarkupOutline.Proofs.ReadingTags
import MarkupOutline.Proofs.SourceFidelity

/-!
# What elements are made of

Whatever the text, an element read from it can be written down as a tag again (`writable_of_read`):
its tag and its keys are names, and each of its values has been read between two quotation marks of
one kind, so at least the mark of that kind does not occur in it. Blanks have been collapsed before
values are read, so collapsing does nothing more to a value (`AttributeWritable.collapse_eq`).
-/

namespace MarkupOutline

open Forest

/-! ## Collapsed text -/

namespace Text

/-- Collapsed text has no two spaces side by side. -/
theorem not_infix_collapse (cs : List Char) : ¬ [' ', ' '] <:+: collapse cs := by
  have hcons : ∀ (c : Char) (ds : List Char), ¬ [' ', ' '] <:+: ds →
      (c = ' ' → ds.head? ≠ some ' ') → ¬ [' ', ' '] <:+: c :: ds := by
    intro c ds hds hhead h
    rcases List.infix_cons_iff.1 h with h | h
    · obtain ⟨hspace, hnext⟩ := List.cons_prefix_cons.1 h
      obtain ⟨more, hmore⟩ := hnext
      exact hhead hspace.symm (by rw [← hmore]; rfl)
    · exact hds h
  induction cs with
  | nil => simp [collapse]
  | cons c cs ih =>
    by_cases hc : isBlank c
    · rw [collapse_cons_of_isBlank hc]
      split
      · exact ih
      · next hhead => exact hcons ' ' _ ih fun _ => hhead
    · rw [collapse_cons_of_not_isBlank hc]
      refine hcons c _ ih ?_
      rintro rfl
      exact absurd rfl hc

/-- Text whose only blanks are single spaces is collapsed already. -/
theorem collapse_eq_self {cs : List Char} (hblank : ∀ c ∈ cs, isBlank c → c = ' ')
    (hsingle : ¬ [' ', ' '] <:+: cs) : collapse cs = cs := by
  induction cs with
  | nil => rfl
  | cons c cs ih =>
    rw [List.forall_mem_cons] at hblank
    have hrest := ih hblank.2 fun h => hsingle (List.infix_cons h)
    by_cases hc : isBlank c
    · have hspace := hblank.1 hc
      subst hspace
      rw [collapse_cons_of_isBlank hc, hrest, if_neg]
      intro hhead
      obtain ⟨rest, rfl⟩ := List.head?_eq_some_iff.1 hhead
      exact hsingle (List.prefix_append [' ', ' '] rest).isInfix
    · rw [collapse_cons_of_not_isBlank hc, hrest]

end Text

/-! ## Attributes as they are read -/

namespace Attributes

/-- An attribute as it can be read from a text: its key is a name, and its value stands in the text
and lacks a quotation mark. -/
structure ReadFrom (cs : List Char) (entry : String × String) : Prop where
  key : ∃ n : Markup.NameText, entry.1 = n.name
  quote : ∃ quote, isQuote quote ∧ quote ∉ entry.2.toList
  value : entry.2.toList <:+: cs

theorem ReadFrom.mono {cs ds : List Char} {entry : String × String} (h : ReadFrom cs entry)
    (hds : cs <:+ ds) : ReadFrom ds entry :=
  ⟨h.key, h.quote, h.value.trans hds.isInfix⟩

/-- Every attribute of a text is read from it. -/
theorem readFrom_of_mem_pairs (cs : List Char) : ∀ entry ∈ pairs cs, ReadFrom cs entry := by
  cases cs with
  | nil => simp
  | cons c rest =>
    intro entry h
    by_cases hc : Name.isStart c
    · rw [pairs_cons_of_isStart rest hc] at h
      have hlength := Text.length_dropWhile_le (p := Name.isPart) rest
      have hrest : rest.dropWhile Name.isPart <:+ c :: rest :=
        (List.dropWhile_suffix _).trans (List.suffix_cons c rest)
      cases hvalue : readValue? (rest.dropWhile Name.isPart) with
      | none =>
        rw [hvalue] at h
        exact (readFrom_of_mem_pairs _ entry h).mono hrest
      | some result =>
        obtain ⟨value, behind⟩ := result
        obtain ⟨before, after, quote, _, _, hquote, hnot, htext⟩ :=
          exists_of_readValue?_eq_some hvalue
        rw [htext] at hrest
        rw [hvalue, List.mem_cons] at h
        rcases h with rfl | h
        · refine ⟨⟨⟨c, rest.takeWhile Name.isPart, hc, ?_⟩, rfl⟩, ⟨quote, hquote, ?_⟩, ?_⟩
          · exact List.all_eq_true.1 List.all_takeWhile
          · rwa [String.toList_ofList]
          · rw [String.toList_ofList]
            refine List.IsInfix.trans ⟨before ++ '=' :: (after ++ [quote]), quote :: behind, ?_⟩
              hrest.isInfix
            simp
        · have hbehind := length_readValue?_lt hvalue
          refine (readFrom_of_mem_pairs _ entry h).mono (List.IsSuffix.trans ?_ hrest)
          exact ⟨before ++ '=' :: (after ++ quote :: (value ++ [quote])), by simp⟩
    · rw [pairs_cons_of_not_isStart rest hc] at h
      exact (readFrom_of_mem_pairs rest entry h).mono (List.suffix_cons c rest)
termination_by cs.length
decreasing_by
  all_goals simp only [List.length_cons]
  all_goals omega

/-! ## Entries of a list of attributes -/

@[ext]
theorem ext {a b : Attributes} (h : a.entries = b.entries) : a = b := by
  cases a
  cases b
  rw [mk.injEq]
  exact h

theorem mem_entries_insert {a : Attributes} {key value : String} {entry : String × String}
    (h : entry ∈ (a.insert key value).entries) : entry = (key, value) ∨ entry ∈ a.entries := by
  unfold insert at h
  split at h
  · obtain ⟨e, he, hentry⟩ := List.mem_map.1 h
    split at hentry
    · exact .inl hentry.symm
    · exact .inr (hentry ▸ he)
  · rw [List.mem_append, List.mem_singleton] at h
    exact h.symm

/-- Inserting pairs makes no entries but these pairs. -/
theorem mem_of_mem_entries_ofList {pairs : List (String × String)} {entry : String × String}
    (h : entry ∈ (ofList pairs).entries) : entry ∈ pairs := by
  have hinserted : ∀ (pairs : List (String × String)) (a : Attributes),
      entry ∈ (pairs.foldl (fun a pair => a.insert pair.1 pair.2) a).entries →
        entry ∈ a.entries ∨ entry ∈ pairs := by
    intro pairs
    induction pairs with
    | nil => exact fun a h => .inl h
    | cons pair pairs ih =>
      intro a h
      rcases ih (a.insert pair.1 pair.2) h with h | h
      · rcases mem_entries_insert h with rfl | h
        · exact .inr List.mem_cons_self
        · exact .inl h
      · exact .inr (List.mem_cons_of_mem pair h)
  exact (hinserted pairs empty h).resolve_left (by simp [empty])

/-- Attributes are those of the list of their entries. -/
theorem ofList_entries (a : Attributes) : ofList a.entries = a := by
  have hinserted : ∀ (pairs : List (String × String)) (a : Attributes),
      ((a.entries ++ pairs).map (·.1)).Nodup →
        (pairs.foldl (fun a pair => a.insert pair.1 pair.2) a).entries = a.entries ++ pairs := by
    intro pairs
    induction pairs with
    | nil => exact fun a _ => (List.append_nil a.entries).symm
    | cons pair pairs ih =>
      intro a hnodup
      have hnew : pair.1 ∉ a.keys := by
        intro hmem
        rw [List.map_append, List.nodup_append] at hnodup
        exact hnodup.2.2 _ hmem _ List.mem_cons_self rfl
      have hentries : (a.insert pair.1 pair.2).entries = a.entries ++ [pair] := by
        rw [insert, dif_neg hnew]
      rw [List.foldl_cons, ih, hentries, List.append_assoc, List.singleton_append]
      rw [hentries, List.append_assoc, List.singleton_append]
      exact hnodup
  apply Attributes.ext
  exact hinserted a.entries empty a.keys_nodup

end Attributes

/-! ## Elements that can be written -/

/-- An attribute that can be written: its key is a name, its value lacks one of the two quotation
marks, and the only blanks in it are single spaces. -/
structure AttributeWritable (entry : String × String) : Prop where
  key : ∃ n : Markup.NameText, entry.1 = n.name
  quote : '"' ∉ entry.2.toList ∨ '\'' ∉ entry.2.toList
  blank : ∀ c ∈ entry.2.toList, Text.isBlank c → c = ' '
  single : ¬ [' ', ' '] <:+: entry.2.toList

theorem AttributeWritable.collapse_eq {entry : String × String} (h : AttributeWritable entry) :
    Text.collapse entry.2.toList = entry.2.toList :=
  Text.collapse_eq_self h.blank h.single

/-- The attributes of a tag can be written, whatever the text of the tag. -/
theorem Attributes.writable_of_mem_ofText {cs : List Char} {entry : String × String}
    (h : entry ∈ (ofText cs).entries) : AttributeWritable entry := by
  rw [ofText_eq] at h
  obtain ⟨hkey, ⟨quote, hquote, hnot⟩, hvalue⟩ :=
    readFrom_of_mem_pairs _ _ (mem_of_mem_entries_ofList h)
  refine ⟨hkey, ?_, fun c hc hblank => ?_, fun hdouble => ?_⟩
  · rw [isQuote, Bool.or_eq_true, beq_iff_eq, beq_iff_eq] at hquote
    rcases hquote with rfl | rfl
    · exact .inl hnot
    · exact .inr hnot
  · exact Text.eq_space_of_mem_collapse (hvalue.subset hc) hblank
  · exact Text.not_infix_collapse cs (hdouble.trans hvalue)

/-- An element that can be written: its tag is a name that makes an element, its attributes can be
written, and its label and kind are those that its tag and its attributes give it. -/
structure Element.Writable (e : Element) : Prop where
  tag : ∃ n : Markup.NameText, e.tag = n.name
  isShown : Markup.isShownTag e.tag = true
  attributes : ∀ entry ∈ e.attributes.entries, AttributeWritable entry
  label : e.label = Element.labelOf e.tag e.attributes
  kind : e.kind = Kind.ofTag e.tag

namespace Markup

/-- The start tags of a text bear names. -/
theorem exists_name_of_mem_tokensOf {text : String} {tag : StartTag}
    (h : .startTag tag ∈ tokensOf text) : ∃ n : NameText, tag.name = n.name := by
  obtain ⟨d, _, _, _, _, hread⟩ := Token.exists_of_mem_readAll h
  obtain ⟨name, hname, htag, _⟩ := Token.exists_name_of_eq_read hread
  obtain ⟨n, hn⟩ := NameText.exists_of_read? hname
  exact ⟨n, by rw [htag, ← hn]; rfl⟩

/-- Every element that is read can be written. -/
theorem writable_of_read {text : String} {forest : Forest Element}
    (hforest : map sketchOf forest = prune (fullTreeOf text)) {e : Element}
    (he : e ∈ values forest) : e.Writable := by
  have hshown : isShownTag e.tag = true := by
    have hmem : sketchOf e ∈ values (prune (fullTreeOf text)) := by
      rw [← hforest, values_map]
      exact List.mem_map_of_mem he
    rw [values_eq_map_subtrees] at hmem
    obtain ⟨t, ht, hvalue⟩ := List.mem_map.1 hmem
    have hshown := isShownTag_of_mem_subtrees_prune ht
    rwa [hvalue] at hshown
  -- the end of a sketch, which is all that moves, is no part of this
  obtain ⟨htag, hattributes, hlabel, hkind⟩ := of_mem_values_read
    (P := fun s => (∃ n : NameText, s.tag = n.name) ∧
      (∀ entry ∈ s.attributes.entries, AttributeWritable entry) ∧
      s.label = Element.labelOf s.tag s.attributes ∧ s.kind = Kind.ofTag s.tag)
    hforest
    (fun tag htag => ⟨exists_name_of_mem_tokensOf htag,
      fun _ => Attributes.writable_of_mem_ofText, rfl, rfl⟩)
    (fun _ _ _ _ hs => hs) (fun _ hs => hs) he
  exact ⟨htag, hshown, hattributes, hlabel, hkind⟩

end Markup

end MarkupOutline
