import MarkupOutline.Proofs.AssemblySteps

/-!
# Consistent assemblies

The open tags of an assembly, the numbers of its parts and its count of definition blocks say the
same thing in different ways: `Assembly.Consistent` puts down how they hang together. Every token
keeps to it (`Consistent.step`), and so does the end of the text (`Consistent.closeAll`). Since the
number of a part is greater than that of the part it stands in, no part is asked for before it has
been built (`forest_ne_unbuilt`).
-/

namespace MarkupOutline.Markup

/-! ## Lists of numbers -/

/-- The numbers of some parts, which stand among the roots and in one list of children for each part.
Every number stands there once, and in each list the numbers increase, from that of the parent on. -/
structure Linked (roots : List Nat) (children : List (List Nat)) : Prop where
  perm_range : (roots ++ children.flatten).Perm (List.range children.length)
  roots_increasing : roots.Pairwise (· < ·)
  children_increasing : ∀ (i : Nat) (ns : List Nat), children[i]? = some ns →
    (i :: ns).Pairwise (· < ·)

namespace Linked

variable {roots : List Nat} {children : List (List Nat)}

theorem lt_length (h : Linked roots children) {i : Nat} (hi : i ∈ roots ++ children.flatten) :
    i < children.length :=
  List.mem_range.1 (h.perm_range.mem_iff.1 hi)

theorem lt_length_of_mem_children (h : Linked roots children) {i j : Nat} {ns : List Nat}
    (hns : children[i]? = some ns) (hj : j ∈ ns) : j < children.length :=
  h.lt_length (List.mem_append_right _ (List.mem_flatten_of_mem (List.mem_of_getElem? hns) hj))

/-- A number behind all others of an increasing list goes on with it. -/
theorem pairwise_concat {ns : List Nat} {n : Nat} (h : ns.Pairwise (· < ·))
    (hn : ∀ i ∈ ns, i < n) : (ns ++ [n]).Pairwise (· < ·) := by
  rw [List.pairwise_append]
  refine ⟨h, List.pairwise_singleton _ _, fun i hi j hj => ?_⟩
  rw [List.mem_singleton] at hj
  exact hj ▸ hn i hi

/-- A part without children comes last, and there is no list behind it. -/
theorem children_of_getElem?_concat (h : Linked roots children) {i : Nat} {ns : List Nat}
    (hns : (children ++ [[]])[i]? = some ns) : (i :: ns).Pairwise (· < ·) := by
  rw [List.getElem?_append] at hns
  split at hns
  · exact h.children_increasing i ns hns
  · have hnil : ns = [] := List.mem_singleton.1 (List.mem_of_getElem? hns)
    rw [hnil]
    exact List.pairwise_singleton _ _

/-- The next number may become a root. -/
theorem addRoot (h : Linked roots children) :
    Linked (roots ++ [children.length]) (children ++ [[]]) where
  perm_range := by
    have hmoved : (roots ++ [children.length] ++ children.flatten).Perm
        (roots ++ children.flatten ++ [children.length]) := by
      rw [List.append_assoc, List.append_assoc]
      exact List.perm_append_comm.append_left roots
    rw [List.flatten_append, List.flatten_singleton, List.append_nil, List.length_append,
      List.length_singleton, List.range_succ]
    exact hmoved.trans (h.perm_range.append_right _)
  roots_increasing :=
    pairwise_concat h.roots_increasing fun i hi => h.lt_length (List.mem_append_left _ hi)
  children_increasing _ _ := h.children_of_getElem?_concat

/-- One more number in one of some lists is one more number in all of them. -/
theorem perm_flatten_modify {n i : Nat} {xs : List (List Nat)} (h : i < xs.length) :
    (xs.modify i (· ++ [n])).flatten.Perm (xs.flatten ++ [n]) := by
  induction xs generalizing i with
  | nil => simp at h
  | cons x xs ih =>
    cases i with
    | zero =>
      rw [List.modify_zero_cons, List.flatten_cons, List.flatten_cons, List.append_assoc,
        List.append_assoc]
      exact List.perm_append_comm.append_left x
    | succ i =>
      rw [List.modify_succ_cons, List.flatten_cons, List.flatten_cons, List.append_assoc]
      exact (ih (Nat.lt_of_succ_lt_succ h)).append_left x

/-- The next number may become a child of any part there is. -/
theorem addChild (h : Linked roots children) {parent : Nat} (hparent : parent < children.length) :
    Linked roots ((children ++ [[]]).modify parent (· ++ [children.length])) where
  perm_range := by
    have hadded := (perm_flatten_modify (n := children.length) hparent).append_left roots
    rw [modify_append_of_lt _ _ hparent, List.flatten_append, List.flatten_singleton,
      List.append_nil, List.length_append, List.length_modify, List.length_singleton,
      List.range_succ]
    rw [← List.append_assoc] at hadded
    exact hadded.trans (h.perm_range.append_right _)
  roots_increasing := h.roots_increasing
  children_increasing i ns hns := by
    rw [List.getElem?_modify] at hns
    obtain ⟨ms, hms, rfl⟩ := Option.map_eq_some_iff.1 hns
    have hold := h.children_of_getElem?_concat hms
    split
    · next heq =>
      -- the parent's list ends with the new number, which is greater than any
      subst heq
      rw [List.getElem?_append_left hparent] at hms
      show ((parent :: ms) ++ [children.length]).Pairwise (· < ·)
      refine pairwise_concat hold fun j hj => ?_
      rcases List.mem_cons.1 hj with rfl | hj
      · exact hparent
      · exact h.lt_length_of_mem_children hms hj
    · exact hold

end Linked

theorem linked_nil : Linked [] [] :=
  ⟨List.Perm.refl _, List.Pairwise.nil, by simp⟩

/-- A value may be changed before or after a map. -/
theorem map_modify {α β : Type} {f : α → β} {g : α → α} {k : β → β}
    (h : ∀ x, f (g x) = k (f x)) (xs : List α) (i : Nat) :
    (xs.modify i g).map f = (xs.map f).modify i k := by
  induction xs generalizing i with
  | nil => simp
  | cons x xs ih =>
    cases i with
    | zero => rw [List.modify_zero_cons, List.map_cons, List.map_cons, List.modify_zero_cons, h]
    | succ i =>
      rw [List.modify_succ_cons, List.map_cons, List.map_cons, List.modify_succ_cons, ih]

/-! ## Consistency -/

namespace Assembly

/-- The numbers of the children of each part. -/
def children (a : Assembly) : List (List Nat) :=
  a.parts.toList.map (·.children.toList)

/-- How the parts of an assembly hang together. The count of definition blocks is that of the open
tags that open one. An open tag that made a part opens none, and none is open around it; its tag has
no dot, and its number is that of a part, and greater than those of the parts around it. -/
structure Consistent (a : Assembly) : Prop where
  definitions_eq : a.definitions = a.openTags.countP (·.isDefinition)
  shown : ∀ o ∈ a.openTags, ∀ number, o.part = some number →
    o.isDefinition = false ∧ '.' ∉ o.tag.toList ∧ number < a.parts.size
  not_hidden : a.openTags.Pairwise fun inner outer =>
    inner.part ≠ none → outer.isDefinition = false
  decreasing : (a.openTags.filterMap (·.part)).Pairwise (· > ·)
  linked : Linked a.roots.toList a.children

theorem length_children (a : Assembly) : a.children.length = a.parts.size := by
  rw [children, List.length_map, Array.length_toList]

theorem consistent_empty : Assembly.empty.Consistent :=
  ⟨rfl, by simp [empty], List.Pairwise.nil, List.Pairwise.nil, linked_nil⟩

variable {a : Assembly}

/-! ## Start tags -/

theorem children_add_root {s : Sketch} (h : a.parent? = none) :
    (a.add s).children = a.children ++ [[]] := by
  unfold add children
  rw [h]
  simp

theorem children_add_child {s : Sketch} {parent : Nat} (h : a.parent? = some parent) :
    (a.add s).children = (a.children ++ [[]]).modify parent (· ++ [a.parts.size]) := by
  have hchild : ∀ part : Part, (part.addChild a.parts.size).children.toList =
      part.children.toList ++ [a.parts.size] := fun part => Array.toList_push
  have hpush : (a.parts.push ⟨s, #[]⟩).toList.map (·.children.toList) = a.children ++ [[]] := by
    rw [Array.toList_push, List.map_append]
    rfl
  unfold add
  rw [h, ← hpush]
  show List.map _ (Array.modify _ parent _).toList = _
  rw [Array.toList_modify]
  exact map_modify hchild _ parent

theorem Consistent.linked_add (h : a.Consistent) (s : Sketch) :
    Linked (a.add s).roots.toList (a.add s).children := by
  cases hparent : a.parent? with
  | none =>
    have hroots : (a.add s).roots.toList = a.roots.toList ++ [a.children.length] := by
      unfold add
      rw [hparent, length_children]
      simp
    rw [hroots, children_add_root hparent]
    exact h.linked.addRoot
  | some parent =>
    have hroots : (a.add s).roots = a.roots := by
      unfold add
      rw [hparent]
    obtain ⟨o, ho, hpart⟩ := List.exists_of_findSome?_eq_some hparent
    have hlt : parent < a.children.length := by
      rw [length_children]
      exact (h.shown o ho parent hpart).2.2
    rw [hroots, children_add_child hparent, ← length_children]
    exact h.linked.addChild hlt

theorem openTags_add (a : Assembly) (s : Sketch) : (a.add s).openTags = a.openTags := by
  unfold add
  dsimp only
  split <;> rfl

theorem definitions_add (a : Assembly) (s : Sketch) : (a.add s).definitions = a.definitions := by
  unfold add
  dsimp only
  split <;> rfl

theorem size_parts_add (a : Assembly) (s : Sketch) :
    (a.add s).parts.size = a.parts.size + 1 := by
  unfold add
  dsimp only
  split <;> simp

/-- A part may be added at any time, as no open tag has its number yet. -/
theorem Consistent.add (h : a.Consistent) (s : Sketch) : (a.add s).Consistent where
  definitions_eq := by
    rw [definitions_add, openTags_add]
    exact h.definitions_eq
  shown o ho number hnumber := by
    rw [openTags_add] at ho
    obtain ⟨hdefinition, hdot, hlt⟩ := h.shown o ho number hnumber
    rw [size_parts_add]
    exact ⟨hdefinition, hdot, Nat.lt_succ_of_lt hlt⟩
  not_hidden := by
    rw [openTags_add]
    exact h.not_hidden
  decreasing := by
    rw [openTags_add]
    exact h.decreasing
  linked := h.linked_add s

/-- A tag may be opened if it has no part, or one with a number greater than those of all tags that
are open, while no definition block is. -/
theorem Consistent.push (h : a.Consistent) {o : OpenTag}
    (ho : ∀ number, o.part = some number →
      (o.isDefinition = false ∧ '.' ∉ o.tag.toList ∧ number < a.parts.size) ∧
      ∀ outer ∈ a.openTags, outer.isDefinition = false ∧
        ∀ other, outer.part = some other → other < number) : (a.push o).Consistent where
  definitions_eq := by
    show a.definitions + o.isDefinition.toNat = ((o :: a.openTags).countP (·.isDefinition) : Nat)
    rw [List.countP_cons, h.definitions_eq]
    cases o.isDefinition <;> simp
  shown x hx number hnumber := by
    rcases List.mem_cons.1 hx with rfl | hx
    · exact (ho number hnumber).1
    · exact h.shown x hx number hnumber
  not_hidden := by
    refine List.Pairwise.cons (fun outer houter hpart => ?_) h.not_hidden
    obtain ⟨number, hnumber⟩ := Option.ne_none_iff_exists'.1 hpart
    exact ((ho number hnumber).2 outer houter).1
  decreasing := by
    show ((o :: a.openTags).filterMap (·.part)).Pairwise (· > ·)
    cases hpart : o.part with
    | none =>
      rw [List.filterMap_cons_none hpart]
      exact h.decreasing
    | some number =>
      rw [List.filterMap_cons_some hpart]
      refine List.Pairwise.cons (fun other hother => ?_) h.decreasing
      obtain ⟨outer, houter, hpart'⟩ := List.mem_filterMap.1 hother
      exact ((ho number hpart).2 outer houter).2 other hpart'
  linked := h.linked

/-- Where a tag makes a part no definition block is open. -/
theorem Consistent.not_isDefinition_of_shows (h : a.Consistent) {tag : String}
    (hshows : a.shows tag = true) : ∀ o ∈ a.openTags, o.isDefinition = false := by
  simp only [shows, Bool.and_eq_true, beq_iff_eq] at hshows
  have hcount : a.openTags.countP (·.isDefinition) = 0 := by
    have hdefinitions := h.definitions_eq
    omega
  intro o ho
  simpa using List.countP_eq_zero.1 hcount o ho

theorem Consistent.start (h : a.Consistent) (tag : StartTag) : (a.start tag).Consistent := by
  unfold Assembly.start
  cases hshows : a.shows tag.name with
  | false =>
    simp only [Bool.false_eq_true, if_false]
    split
    · exact h
    · exact h.push (by simp)
  | true =>
    simp only [if_true]
    split
    · exact h.add _
    · refine (h.add _).push fun number hnumber => ?_
      -- the new part has the greatest number, and nothing hides it
      obtain rfl : a.parts.size = number := Option.some.inj hnumber
      have hplain := h.not_isDefinition_of_shows hshows
      simp only [shows, Bool.and_eq_true, Bool.not_eq_true', Name.isDotted,
        decide_eq_false_iff_not] at hshows
      refine ⟨⟨hshows.2, hshows.1.2, ?_⟩, ?_⟩
      · rw [size_parts_add]
        exact Nat.lt_succ_self _
      · rw [openTags_add]
        intro outer houter
        exact ⟨hplain outer houter, fun other hother => (h.shown outer houter other hother).2.2⟩

/-! ## End tags -/

theorem map_children_endAt (o : OpenTag) (p : Position) (parts : Array Part) :
    (o.endAt p parts).toList.map (·.children.toList) = parts.toList.map (·.children.toList) := by
  unfold OpenTag.endAt
  split
  · next number _ =>
    have hsame : ∀ part : Part, (part.endAt p).children.toList = id part.children.toList :=
      fun _ => rfl
    rw [Array.toList_modify, map_modify hsame, List.modify_id]
  · rfl

theorem size_endAt (o : OpenTag) (p : Position) (parts : Array Part) :
    (o.endAt p parts).size = parts.size := by
  have hlength := congrArg List.length (map_children_endAt o p parts)
  rwa [List.length_map, List.length_map, Array.length_toList, Array.length_toList] at hlength

theorem Consistent.closeInnermost (h : a.Consistent) {o : OpenTag} {rest : List OpenTag}
    (htags : a.openTags = o :: rest) (p : Position) : (a.closeInnermost o rest p).Consistent where
  definitions_eq := by
    show a.definitions - o.isDefinition.toNat = (rest.countP (·.isDefinition) : Nat)
    rw [h.definitions_eq, htags, List.countP_cons]
    cases o.isDefinition <;> simp
  shown x hx number hnumber := by
    have hshown := h.shown x (htags ▸ List.mem_cons_of_mem o hx) number hnumber
    rwa [← size_endAt o p a.parts] at hshown
  not_hidden := (List.pairwise_cons.1 (htags ▸ h.not_hidden)).2
  decreasing := by
    have hdecreasing := h.decreasing
    rw [htags, List.filterMap_cons] at hdecreasing
    split at hdecreasing
    · exact hdecreasing
    · exact (List.pairwise_cons.1 hdecreasing).2
  linked := by
    have hchildren : (a.closeInnermost o rest p).children = a.children :=
      map_children_endAt o p a.parts
    rw [hchildren]
    exact h.linked

/-- What has been noted is no part of the consistency. -/
theorem Consistent.withNotices (h : a.Consistent) (notices : List Notice) :
    { a with notices := notices }.Consistent :=
  ⟨h.definitions_eq, h.shown, h.not_hidden, h.decreasing, h.linked⟩

theorem Consistent.finish (h : a.Consistent) (name : String) (p : Position) :
    (a.finish name p).Consistent := by
  unfold Assembly.finish
  split
  · exact h.withNotices _
  · next o rest htags => exact h.closeInnermost htags p

/-! ## Runs -/

/-- Every token leaves an assembly consistent. -/
theorem Consistent.step (h : a.Consistent) (token : Token) : (a.step token).Consistent := by
  unfold Assembly.step
  extract_lets noted
  have hnoted : noted.Consistent := by
    unfold noted
    split
    · exact h.withNotices _
    · exact h
  cases token with
  | startTag tag => exact hnoted.start tag
  | endTag name p => exact hnoted.finish name p
  | aside ended => exact hnoted
  | stray => exact hnoted

/-- A run leaves an assembly consistent at all times. -/
theorem Consistent.of_mem_scanl (h : a.Consistent) (tokens : List Token) :
    ∀ b ∈ tokens.scanl Assembly.step a, b.Consistent := by
  induction tokens generalizing a with
  | nil => simpa using h
  | cons token tokens ih =>
    rw [List.scanl_cons, List.forall_mem_cons]
    exact ⟨h, ih (h.step token)⟩

/-- So is what a run ends with. -/
theorem Consistent.foldl_step (h : a.Consistent) (tokens : List Token) :
    (tokens.foldl Assembly.step a).Consistent := by
  induction tokens generalizing a with
  | nil => exact h
  | cons token tokens ih => exact ih (h.step token)

theorem map_children_foldr_endAt (p : Position) (os : List OpenTag) (parts : Array Part) :
    (os.foldr (OpenTag.endAt p) parts).toList.map (·.children.toList) =
      parts.toList.map (·.children.toList) := by
  induction os with
  | nil => rfl
  | cons o os ih => rw [List.foldr_cons, map_children_endAt, ih]

theorem children_closeAll (a : Assembly) (p : Position) :
    (a.closeAll p).children = a.children :=
  map_children_foldr_endAt p a.openTags a.parts

/-- Closing the open tags makes no part and takes none away. -/
theorem size_parts_closeAll (a : Assembly) (p : Position) :
    (a.closeAll p).parts.size = a.parts.size := by
  rw [← length_children, children_closeAll, length_children]

/-- The end of the text leaves it consistent as well. -/
theorem Consistent.closeAll (h : a.Consistent) (p : Position) : (a.closeAll p).Consistent where
  definitions_eq := rfl
  shown o ho := by simp [Assembly.closeAll] at ho
  not_hidden := List.Pairwise.nil
  decreasing := List.Pairwise.nil
  linked := by
    rw [children_closeAll]
    exact h.linked

end Assembly

/-! ## Building -/

/-- All parts with the numbers from `n` on have been built. -/
def Built.From (built : Built) (n : Nat) : Prop :=
  ∀ i, n ≤ i → i < built.size → ∃ t, built[i]? = some (some t)

/-- Trees that have been built can be asked for. -/
theorem exists_mapM_tree {built : Built} {n : Nat} (h : built.From n) (ns : List Nat)
    (hns : ∀ i ∈ ns, n ≤ i ∧ i < built.size) : ∃ ts, ns.mapM built.tree = .ok ts := by
  induction ns with
  | nil => exact ⟨[], rfl⟩
  | cons i ns ih =>
    rw [List.forall_mem_cons] at hns
    obtain ⟨t, ht⟩ := h i hns.1.1 hns.1.2
    obtain ⟨ts, hts⟩ := ih hns.2
    refine ⟨t :: ts, ?_⟩
    rw [List.mapM_cons, tree_of_getElem? ht, hts]
    rfl

/-- A part is built, or its bounds are reversed, once its children have been built. -/
theorem tree_cases {built : Built} {part : Part} {ts : List (Tree Element)}
    (h : part.children.toList.mapM built.tree = .ok ts) :
    (∃ t, part.tree built = .ok t) ∨ ∃ bounds, part.tree built = .error (.reversed bounds) := by
  unfold Part.tree Sketch.element
  rw [h]
  cases Span.ofBounds part.sketch.start part.sketch.stop with
  | ok span => exact .inl ⟨_, rfl⟩
  | error bounds => exact .inr ⟨bounds, rfl⟩

/-- Building goes from the last part to the first, and never asks for a part that has not been
built, as children have greater numbers than their parents. -/
theorem buildBelow_cases {parts : Array Part}
    (hparts : ∀ (i : Nat) (part : Part), parts[i]? = some part →
      ∀ j ∈ part.children.toList, i < j ∧ j < parts.size)
    (n : Nat) (hn : n ≤ parts.size) {built : Built} (hsize : built.size = parts.size)
    (hbuilt : built.From n) :
    (∃ built' : Built, buildBelow parts n hn built = .ok built' ∧ built'.size = parts.size ∧
      built'.From 0) ∨
    ∃ bounds, buildBelow parts n hn built = .error (.reversed bounds) := by
  induction n generalizing built with
  | zero => exact .inl ⟨built, rfl, hsize, hbuilt⟩
  | succ n ih =>
    have hpart : parts[n]? = some parts[n] := Array.getElem?_eq_getElem hn
    -- all children of part `n` have greater numbers, so they have been built before
    obtain ⟨ts, hts⟩ := exists_mapM_tree hbuilt parts[n].children.toList fun j hj => by
      rw [hsize]
      exact hparts n parts[n] hpart j hj
    rcases tree_cases hts with ⟨t, ht⟩ | ⟨bounds, hbounds⟩
    · rw [buildBelow, ht]
      refine ih _ (by rw [Array.size_setIfInBounds, hsize]) fun i hle hlt => ?_
      rw [Array.size_setIfInBounds] at hlt
      rcases Nat.eq_or_lt_of_le hle with rfl | hlt'
      · exact ⟨t, Array.getElem?_setIfInBounds_self_of_lt hlt⟩
      · rw [Array.getElem?_setIfInBounds_ne (Nat.ne_of_lt hlt')]
        exact hbuilt i hlt' hlt
    · rw [buildBelow, hbounds]
      exact .inr ⟨bounds, rfl⟩

/-- A consistent assembly never asks for a part that has not been built. -/
theorem Assembly.Consistent.forest_ne_unbuilt {a : Assembly} (h : a.Consistent) (p : Position)
    (number : Nat) : a.forest p ≠ .error (.unbuilt number) := by
  have hclosed := (h.closeAll p).linked
  have hsize : (a.closeAll p).children.length = (a.closeAll p).parts.size := length_children _
  have hparts : ∀ (i : Nat) (part : Part), (a.closeAll p).parts[i]? = some part →
      ∀ j ∈ part.children.toList, i < j ∧ j < (a.closeAll p).parts.size := by
    intro i part hpart j hj
    have hchildren : (a.closeAll p).children[i]? = some part.children.toList := by
      rw [Assembly.children, List.getElem?_map, Array.getElem?_toList, hpart]
      rfl
    refine ⟨?_, hsize ▸ hclosed.lt_length_of_mem_children hchildren hj⟩
    exact (List.pairwise_cons.1 (hclosed.children_increasing i _ hchildren)).1 j hj
  have hnone : Built.From (Array.replicate (a.closeAll p).parts.size none)
      (a.closeAll p).parts.size := by
    intro i hle hlt
    rw [Array.size_replicate] at hlt
    exact absurd hlt (Nat.not_lt.2 hle)
  unfold Assembly.forest buildForest
  rcases buildBelow_cases hparts _ (Nat.le_refl _) Array.size_replicate hnone with
    ⟨built, hok, hlength, hbuilt⟩ | ⟨bounds, herror⟩
  · obtain ⟨ts, hts⟩ := exists_mapM_tree hbuilt a.roots.toList fun i hi => by
      rw [hlength, ← hsize]
      exact ⟨Nat.zero_le _, hclosed.lt_length (List.mem_append_left _ hi)⟩
    rw [hok]
    show List.mapM built.tree a.roots.toList ≠ _
    rw [hts]
    simp
  · rw [herror]
    simp [bind, Except.bind]

end MarkupOutline.Markup
