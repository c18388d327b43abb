import Mathlib.Data.List.DropRight
import MarkupOutline.Proofs.ReadingTags

/-!
# Attributes in any text

Whatever stands in the text of a tag, its attributes are found from left to right: `StandsAt` says
where an attribute stands in a text, `Leftmost` which attributes a search finds that takes the first
one each time and goes on behind it. Reading finds the same ones (`leftmost_pairs`). A name is passed
over whole when no value follows it, and nothing is lost, since no attribute begins inside it
(`not_hasAt_of_readValue?_eq_none`).
-/

namespace MarkupOutline.Attributes

/-! ## Where attributes stand -/

/-- The text of an attribute: a name, an equals sign with blanks around it, and a value between two
quotation marks of one kind, which do not occur in it. -/
inductive Spelled : List Char → String → String → Prop
  | intro (key : Markup.NameText) {before after value : List Char} {quote : Char}
      (hbefore : ∀ c ∈ before, Text.isBlank c) (hafter : ∀ c ∈ after, Text.isBlank c)
      (hquote : isQuote quote) (hvalue : quote ∉ value) :
      Spelled (key.chars ++ (before ++ '=' :: (after ++ quote :: (value ++ [quote])))) key.name
        (String.ofList value)

/-- The characters from the place `i` up to the place `j` are the text of an attribute. -/
structure StandsAt (cs : List Char) (i j : Nat) (key value : String) : Prop where
  le : i ≤ j
  le_length : j ≤ cs.length
  spelled : Spelled ((cs.take j).drop i) key value

/-- An attribute begins at the place `i`. -/
def HasAt (cs : List Char) (i : Nat) : Prop :=
  ∃ j key value, StandsAt cs i j key value

/-- The attributes that are found from the place `n` on: the first one that begins there or behind
it, and those that are found from its end on. -/
inductive Leftmost (cs : List Char) : Nat → List (String × String) → Prop
  | none {n : Nat} (h : ∀ i, n ≤ i → ¬ HasAt cs i) : Leftmost cs n []
  | next {n i j : Nat} {key value : String} {entries : List (String × String)} (hle : n ≤ i)
      (hfirst : ∀ i', n ≤ i' → i' < i → ¬ HasAt cs i') (h : StandsAt cs i j key value)
      (rest : Leftmost cs j entries) : Leftmost cs n ((key, value) :: entries)

/-! ## Reading an attribute -/

variable {cs rest : List Char} {c : Char} {n i j : Nat} {key value : String}

/-- The text of an attribute is read as its key and its value, whatever stands behind it. -/
theorem Spelled.exists_read {xs : List Char} (h : Spelled xs key value) (behind : List Char) :
    ∃ c rest, xs ++ behind = c :: rest ∧ Name.isStart c ∧
      key = String.ofList (c :: rest.takeWhile Name.isPart) ∧
      readValue? (rest.dropWhile Name.isPart) = some (value.toList, behind) := by
  cases h with
  | @intro key before after value quote hbefore hafter hquote hvalue =>
    have hblank : ∀ x ∈ before.head?, Text.isBlank x := fun x hx =>
      hbefore x (List.mem_of_mem_head? hx)
    have hstop : ∀ y ∈ (before ++ '=' :: (after ++ quote :: (value ++ quote :: behind))).head?,
        ¬ Name.isPart y :=
      Name.not_isPart_head?_append hblank (forall_head?_cons (by decide) _)
    refine ⟨key.first,
      key.others ++ (before ++ '=' :: (after ++ quote :: (value ++ quote :: behind))), ?_,
      key.isStart_first, ?_, ?_⟩
    · simp [Markup.NameText.chars]
    · rw [takeWhile_append_of_stop key.isPart_others hstop]
      rfl
    · rw [dropWhile_append_of_stop key.isPart_others hstop, String.toList_ofList]
      exact readValue?_append hbefore hafter hquote hvalue behind

/-- What is read as a key and a value is the text of an attribute. -/
theorem exists_spelled_of_readValue? {value behind : List Char} (hc : Name.isStart c)
    (h : readValue? (rest.dropWhile Name.isPart) = some (value, behind)) :
    ∃ xs, c :: rest = xs ++ behind ∧
      Spelled xs (String.ofList (c :: rest.takeWhile Name.isPart)) (String.ofList value) := by
  obtain ⟨before, after, quote, hbefore, hafter, hquote, hvalue, htext⟩ :=
    exists_of_readValue?_eq_some h
  have hsplit := List.takeWhile_append_dropWhile (p := Name.isPart) (l := rest)
  rw [htext] at hsplit
  let name : Markup.NameText :=
    ⟨c, rest.takeWhile Name.isPart, hc, List.all_eq_true.1 List.all_takeWhile⟩
  refine ⟨_, ?_, .intro name hbefore hafter hquote hvalue⟩
  rw [← hsplit]
  simp [name, Markup.NameText.chars]

/-- An attribute that stands in a text is read where it begins, and reading it leads to its end. -/
theorem StandsAt.exists_read (h : StandsAt cs i j key value) :
    ∃ c rest, cs.drop i = c :: rest ∧ Name.isStart c ∧
      key = String.ofList (c :: rest.takeWhile Name.isPart) ∧
      readValue? (rest.dropWhile Name.isPart) = some (value.toList, cs.drop j) := by
  obtain ⟨c, rest, hdrop, hread⟩ := h.spelled.exists_read (cs.drop j)
  have hshort : i ≤ (cs.take j).length := by
    rw [List.length_take_of_le h.le_length]
    exact h.le
  have hsplit : cs.drop i = (cs.take j).drop i ++ cs.drop j := by
    rw [← List.drop_append_of_le_length hshort, List.take_append_drop]
  exact ⟨c, rest, hsplit.trans hdrop, hread⟩

/-- Where a key and a value are read an attribute stands. -/
theorem exists_standsAt {value behind : List Char} (hdrop : cs.drop i = c :: rest)
    (hc : Name.isStart c)
    (h : readValue? (rest.dropWhile Name.isPart) = some (value, behind)) :
    ∃ j, i < j ∧ behind = cs.drop j ∧
      StandsAt cs i j (String.ofList (c :: rest.takeWhile Name.isPart)) (String.ofList value) := by
  obtain ⟨xs, hxs, hspelled⟩ := exists_spelled_of_readValue? hc h
  have hne : xs ≠ [] := by
    rintro rfl
    obtain ⟨_, _, hnil, -⟩ := hspelled.exists_read []
    simp at hnil
  have hpos : 0 < xs.length := List.length_pos_iff.2 hne
  rw [← hdrop] at hxs
  have hlength := congrArg List.length hxs
  rw [List.length_drop, List.length_append] at hlength
  have hbehind : behind = cs.drop (i + xs.length) := by
    rw [← List.drop_drop, hxs, List.drop_left]
  have htake : (cs.take (i + xs.length)).drop i = xs := by
    rw [List.drop_take, Nat.add_sub_cancel_left, hxs, List.take_left]
  rw [← htake] at hspelled
  exact ⟨i + xs.length, by omega, hbehind, by omega, by omega, hspelled⟩

/-- At most one attribute begins at a place. -/
theorem StandsAt.unique {j' : Nat} {key' value' : String} (h : StandsAt cs i j key value)
    (h' : StandsAt cs i j' key' value') : j = j' ∧ key = key' ∧ value = value' := by
  obtain ⟨c, rest, hdrop, -, hkey, hread⟩ := h.exists_read
  obtain ⟨c', rest', hdrop', -, hkey', hread'⟩ := h'.exists_read
  obtain ⟨rfl, rfl⟩ := List.cons.inj (hdrop.symm.trans hdrop')
  rw [hread, Option.some.injEq, Prod.mk.injEq, String.toList_inj] at hread'
  have hlength := congrArg List.length hread'.2
  rw [List.length_drop, List.length_drop] at hlength
  have hle := h.le_length
  have hle' := h'.le_length
  exact ⟨by omega, hkey.trans hkey'.symm, hread'.1⟩

/-! ## Where no attribute begins -/

theorem not_hasAt_of_not_isStart (hdrop : cs.drop n = c :: rest) (hc : ¬ Name.isStart c) :
    ¬ HasAt cs n := by
  rintro ⟨j, key, value, h⟩
  obtain ⟨c', rest', hdrop', hc', -⟩ := h.exists_read
  obtain ⟨rfl, -⟩ := List.cons.inj (hdrop.symm.trans hdrop')
  exact hc hc'

/-- No attribute begins inside a name that no value follows. -/
theorem not_hasAt_of_readValue?_eq_none (hdrop : cs.drop n = c :: rest)
    (h : readValue? (rest.dropWhile Name.isPart) = none) (hle : n ≤ i)
    (hlt : i < n + 1 + (rest.takeWhile Name.isPart).length) : ¬ HasAt cs i := by
  rintro ⟨j, key, value, hstands⟩
  obtain ⟨c', rest', hdrop', -, -, hread⟩ := hstands.exists_read
  have hsplit := List.takeWhile_append_dropWhile (p := Name.isPart) (l := rest)
  -- what follows the character at `i` is the rest of the name and what follows the name
  have hrest' : rest' = (rest.takeWhile Name.isPart).drop (i - n) ++ rest.dropWhile Name.isPart := by
    have hnext : rest' = cs.drop (i + 1) := by
      rw [← List.drop_drop, hdrop', List.drop_succ_cons, List.drop_zero]
    rw [hnext, show i + 1 = n + (1 + (i - n)) by omega, ← List.drop_drop, hdrop, Nat.add_comm 1,
      List.drop_succ_cons, ← List.drop_append_of_le_length (by omega), hsplit]
  have hparts : ∀ x ∈ (rest.takeWhile Name.isPart).drop (i - n), Name.isPart x := fun x hx =>
    List.all_eq_true.1 List.all_takeWhile x (List.mem_of_mem_drop hx)
  rw [hrest', List.dropWhile_append_of_pos hparts, List.dropWhile_idempotent, h] at hread
  simp at hread

/-! ## Searching -/

/-- A search may begin earlier if no attribute begins in between. -/
theorem Leftmost.earlier {m : Nat} {entries : List (String × String)} (h : Leftmost cs m entries)
    (hle : n ≤ m) (hnone : ∀ i, n ≤ i → i < m → ¬ HasAt cs i) : Leftmost cs n entries := by
  cases h with
  | none h =>
    refine .none fun i hi => ?_
    rcases Nat.lt_or_ge i m with hlt | hge
    · exact hnone i hi hlt
    · exact h i hge
  | next hle' hfirst h rest =>
    refine .next (Nat.le_trans hle hle') (fun i hi hlt => ?_) h rest
    rcases Nat.lt_or_ge i m with hlt' | hge
    · exact hnone i hi hlt'
    · exact hfirst i hge hlt

/-- A search finds one list of attributes only. -/
theorem Leftmost.unique {entries entries' : List (String × String)} (h : Leftmost cs n entries)
    (h' : Leftmost cs n entries') : entries = entries' := by
  induction h generalizing entries' with
  | none h =>
    cases h' with
    | none => rfl
    | next hle' _ h' => exact absurd ⟨_, _, _, h'⟩ (h _ hle')
  | @next n i j key value entries hle hfirst h rest ih =>
    cases h' with
    | none h' => exact absurd ⟨_, _, _, h⟩ (h' i hle)
    | @next _ i' _ _ _ _ hle' hfirst' h' rest' =>
      have hsame : i = i' := by
        rcases Nat.lt_trichotomy i i' with hlt | heq | hlt
        · exact absurd ⟨_, _, _, h⟩ (hfirst' i hle hlt)
        · exact heq
        · exact absurd ⟨_, _, _, h'⟩ (hfirst i' hle' hlt)
      subst hsame
      obtain ⟨rfl, rfl, rfl⟩ := h.unique h'
      rw [ih rest']

/-- Reading finds from every place on what a search finds. -/
theorem leftmost_pairs (cs : List Char) (n : Nat) : Leftmost cs n (pairs (cs.drop n)) := by
  cases hdrop : cs.drop n with
  | nil =>
    rw [pairs_nil]
    refine .none fun i hi => ?_
    rintro ⟨j, key, value, h⟩
    obtain ⟨c, rest, hcons, -⟩ := h.exists_read
    rw [List.drop_eq_nil_of_le (Nat.le_trans (List.drop_eq_nil_iff.1 hdrop) hi)] at hcons
    simp at hcons
  | cons c rest =>
    have hlt : n < cs.length := by
      rw [← Nat.not_le, ← List.drop_eq_nil_iff, hdrop]
      exact List.cons_ne_nil c rest
    have hrest : rest = cs.drop (n + 1) := by
      rw [← List.drop_drop, hdrop, List.drop_succ_cons, List.drop_zero]
    by_cases hc : Name.isStart c
    · rw [pairs_cons_of_isStart rest hc]
      cases hvalue : readValue? (rest.dropWhile Name.isPart) with
      | some result =>
        obtain ⟨value, behind⟩ := result
        obtain ⟨j, hij, rfl, hstands⟩ := exists_standsAt hdrop hc hvalue
        have hlater := leftmost_pairs cs j
        exact .next (Nat.le_refl n) (fun i hi hlt => absurd hi (Nat.not_le.2 hlt)) hstands hlater
      | none =>
        have hbehind : rest.dropWhile Name.isPart =
            cs.drop (n + 1 + (rest.takeWhile Name.isPart).length) := by
          have hdropped : (rest.takeWhile Name.isPart ++ rest.dropWhile Name.isPart).drop
              (rest.takeWhile Name.isPart).length = rest.dropWhile Name.isPart := List.drop_left
          rw [List.takeWhile_append_dropWhile] at hdropped
          rw [← List.drop_drop, ← hrest, hdropped]
        have hlater := leftmost_pairs cs (n + 1 + (rest.takeWhile Name.isPart).length)
        rw [hbehind]
        exact hlater.earlier (by omega) fun i hi hlt =>
          not_hasAt_of_readValue?_eq_none hdrop hvalue hi hlt
    · rw [pairs_cons_of_not_isStart rest hc, hrest]
      refine (leftmost_pairs cs (n + 1)).earlier (Nat.le_succ n) fun i hi hlt => ?_
      obtain rfl : i = n := Nat.le_antisymm (Nat.le_of_lt_succ hlt) hi
      exact not_hasAt_of_not_isStart hdrop hc
termination_by cs.length - n

/-! ## Repeated keys -/

theorem ofList_concat (pairs : List (String × String)) (entry : String × String) :
    ofList (pairs ++ [entry]) = (ofList pairs).insert entry.1 entry.2 :=
  List.foldl_append

/-- The keys of a list of attributes come in the order in which they first come there. -/
theorem keys_ofList (pairs : List (String × String)) :
    (ofList pairs).keys = (pairs.map (·.1)).eraseDups := by
  induction pairs using List.reverseRecOn with
  | nil => rfl
  | append_singleton pairs entry ih =>
    rw [ofList_concat, keys_insert, ih, List.map_append, List.eraseDups_append]
    by_cases h : entry.1 ∈ pairs.map (·.1)
    · simp [List.mem_eraseDups, List.removeAll, h]
    · simp [List.mem_eraseDups, List.removeAll, h, List.eraseDups_cons]

/-- The value of a key is the last one that a list of attributes gives it. -/
theorem get?_ofList (pairs : List (String × String)) (key : String) :
    (ofList pairs).get? key = pairs.reverse.lookup key := by
  induction pairs using List.reverseRecOn with
  | nil => rfl
  | append_singleton pairs entry ih =>
    rw [ofList_concat, get?_insert, ih, List.reverse_concat, lookup_cons]

/-! ## The attributes of a tag -/

/-- With every run of blanks made one space and the blanks at both ends dropped, at most one
attribute begins at each place of the text of a tag. The attributes of the tag are those that are
found by taking the first each time and going on behind it: their keys stand in the order in which
they are first found, and each has the value that is found last. There are none exactly if none
begins at any place. -/
theorem ofText_leftmost (raw : List Char) :
    (∀ i j j' key key' value value',
      StandsAt (Text.trim (Text.collapse raw)) i j key value →
      StandsAt (Text.trim (Text.collapse raw)) i j' key' value' →
        j = j' ∧ key = key' ∧ value = value') ∧
    (∃ entries, Leftmost (Text.trim (Text.collapse raw)) 0 entries ∧
      (∀ entries', Leftmost (Text.trim (Text.collapse raw)) 0 entries' → entries' = entries) ∧
      (ofText raw).keys = (entries.map (·.1)).eraseDups ∧
      ∀ key, (ofText raw).get? key = entries.reverse.lookup key) ∧
    ((ofText raw).entries = [] ↔ ∀ i, ¬ HasAt (Text.trim (Text.collapse raw)) i) := by
  have hfound : Leftmost (Text.trim (Text.collapse raw)) 0
      (pairs (Text.trim (Text.collapse raw))) := leftmost_pairs _ 0
  refine ⟨fun i j j' key key' value value' h h' => h.unique h',
    ⟨_, hfound, fun entries' h => h.unique hfound, keys_ofList _, get?_ofList _⟩, ?_⟩
  have hkeys : (ofText raw).entries = [] ↔ pairs (Text.trim (Text.collapse raw)) = [] := by
    rw [← List.map_eq_nil_iff (f := (·.1))]
    show (ofText raw).keys = [] ↔ _
    rw [ofText, keys_ofList]
    cases pairs (Text.trim (Text.collapse raw)) with
    | nil => simp
    | cons entry entries => simp [List.eraseDups_cons]
  rw [hkeys]
  constructor
  · intro hnil
    rw [hnil] at hfound
    cases hfound with
    | none h => exact fun i => h i (Nat.zero_le i)
  · intro hnone
    exact hfound.unique (.none fun i _ => hnone i)

/-- The first value takes the beginning of an attribute with it, and a name is found behind a digit. -/
example : (ofText "a='x b='y' \t1c.d = \"z'\" a=\n'u'".toList).entries =
    [("a", "u"), ("c.d", "z'")] := by decide +kernel

end MarkupOutline.Attributes
