import MarkupOutline.Proofs.Building
import MarkupOutline.Proofs.Showing

/-!
# The assembly of a full nest

`Assembly.ofNest` is the assembly that belongs to a nest of all start tags. A step of the assembly
is a step of that nest (`step_ofNest`), so a whole run ends at the assembly of the full nest of all
tokens, and the forest it makes is the pruned full tree (`forest_ofNest`).
-/

namespace MarkupOutline.Markup

open Forest Nest

/-! ## The assembly that belongs to a nest -/

/-- The open tags of a full nest. Those that are shown know the number of their part. -/
def openTagsOf : List (Forest Sketch × Sketch) → List OpenTag
  | [] => []
  | (front, s) :: rest =>
    let part := if isHidden ((front, s) :: rest) || Name.isDotted s.tag then none
      else some (visibleOf front rest).count
    ⟨s.tag, part, isDefinitionTag s.tag⟩ :: openTagsOf rest

/-- The number of open definition blocks. -/
def definitionsOf (around : List (Forest Sketch × Sketch)) : Nat :=
  around.countP fun o => isDefinitionTag o.2.tag

/-- The assembly that belongs to a full nest. -/
def Assembly.ofNest (n : Nest Sketch) (notices : List Notice) : Assembly where
  openTags := openTagsOf n.around
  parts := (layOut 0 ((visible n).whole id)).toArray
  roots := (numbers 0 ((visible n).whole id)).toArray
  definitions := definitionsOf n.around
  notices := notices

theorem ofNest_empty : Assembly.ofNest .empty [] = .empty := by
  simp [Assembly.ofNest, Assembly.empty, Nest.empty, openTagsOf, visible, visibleOf, Nest.whole,
    wholeOf, numbers, definitionsOf]

/-- The innermost tag with a part is the innermost open value that is shown. -/
theorem findSome?_openTagsOf (inside : Forest Sketch) (around : List (Forest Sketch × Sketch)) :
    (openTagsOf around).findSome? (·.part) =
      (openNumbers (visibleOf inside around).around).head? := by
  induction around generalizing inside with
  | nil => rfl
  | cons o rest ih =>
    obtain ⟨front, s⟩ := o
    rw [openTagsOf]
    rcases around_cases front s rest with h | ⟨h, hdot⟩ | ⟨h, hdot⟩
    · rw [visibleOf_hidden _ h, ← ih front]
      simp [h]
    · rw [visibleOf_dotted _ h hdot, show ((visibleOf front rest).add (prune inside)).around =
        (visibleOf front rest).around from rfl, ← ih front]
      simp [hdot]
    · rw [visibleOf_shown _ h hdot]
      simp [h, hdot, Nest.add, Nest.enter, openNumbers, Nest.count]

theorem definitionsOf_eq_zero_iff {around : List (Forest Sketch × Sketch)} :
    definitionsOf around = 0 ↔ isHidden around = false := by
  unfold definitionsOf isHidden
  rw [List.countP_eq_zero, List.any_eq_false]

/-- A start tag makes a part unless a definition block is open or its name is not shown. -/
theorem shows_ofNest (n : Nest Sketch) (notices : List Notice) (tag : String) :
    (Assembly.ofNest n notices).shows tag = (!isHidden n.around && isShownTag tag) := by
  have hcount : ((definitionsOf n.around : Int) == 0) = !isHidden n.around := by
    cases h : isHidden n.around with
    | false =>
      rw [definitionsOf_eq_zero_iff.2 h]
      rfl
    | true =>
      have hne : definitionsOf n.around ≠ 0 := fun hzero => by
        rw [definitionsOf_eq_zero_iff.1 hzero] at h
        exact Bool.false_ne_true h
      simp [hne]
  show ((definitionsOf n.around : Int) == 0 && !Name.isDotted tag && !isDefinitionTag tag) = _
  rw [hcount, isShownTag, Bool.and_assoc, Bool.and_comm (!Name.isDotted tag)]

/-! ## Adding a part -/

theorem modify_append_of_lt {β : Type} {xs : List β} (ys : List β) (g : β → β) {i : Nat}
    (h : i < xs.length) : (xs ++ ys).modify i g = xs.modify i g ++ ys := by
  induction xs generalizing i with
  | nil => simp at h
  | cons x xs ih =>
    cases i with
    | zero => rfl
    | succ i =>
      rw [List.cons_append, List.modify_succ_cons, ih (by simpa using h), List.modify_succ_cons,
        List.cons_append]

/-- The parts and roots of a visible nest with one more leaf, as the assembly makes them. -/
theorem layOut_add_leaf (v : Nest Sketch) (s : Sketch) :
    (layOut 0 ((v.add [⟨s, []⟩]).whole id)).toArray =
        match (openNumbers v.around).head? with
        | some parent => ((layOut 0 (v.whole id)).toArray.push ⟨s, #[]⟩).modify parent
            (Part.addChild v.count)
        | none => (layOut 0 (v.whole id)).toArray.push ⟨s, #[]⟩ := by
  have hadd := layOut_wholeOf_append id v.inside [⟨s, []⟩] v.around
  rw [layOut_cons, numbers, numbers, numbers, layOut_nil, layOut_nil, List.append_nil] at hadd
  rw [Nest.whole, Nest.add, hadd, Nest.whole, Nest.count]
  have hsize : (layOut 0 (wholeOf id v.inside v.around)).length = countOf v.inside v.around := by
    rw [length_layOut, size_wholeOf]
  rcases v with ⟨inside, _ | ⟨⟨front, a⟩, rest⟩⟩
  · rw [List.push_toArray, openNumbers, List.head?_nil, attach]
  · have hlt : countOf front rest < (layOut 0 (wholeOf id inside ((front, a) :: rest))).length := by
      rw [hsize, countOf]
      omega
    simp only [openNumbers, List.head?_cons, List.push_toArray, List.modify_toArray,
      modify_append_of_lt _ _ hlt, attach]
    rfl

theorem numbers_add_leaf (v : Nest Sketch) (s : Sketch) :
    (numbers 0 ((v.add [⟨s, []⟩]).whole id)).toArray =
      match (openNumbers v.around).head? with
      | some _ => (numbers 0 (v.whole id)).toArray
      | none => (numbers 0 (v.whole id)).toArray.push v.count := by
  rcases v with ⟨inside, _ | ⟨⟨front, a⟩, rest⟩⟩
  · simp [Nest.whole, Nest.add, wholeOf, numbers_append, numbers, openNumbers, Nest.count, countOf]
  · exact congrArg List.toArray (numbers_wholeOf id id _ _ _ _ _ _)

/-- A part that is added becomes a leaf of the visible nest. -/
theorem add_ofNest (n m : Nest Sketch) (notices : List Notice) (s : Sketch)
    (haround : m.around = n.around) (hvisible : visible m = (visible n).add [⟨s, []⟩]) :
    (Assembly.ofNest n notices).add s = Assembly.ofNest m notices := by
  have hparent : (Assembly.ofNest n notices).parent? =
      (openNumbers (visible n).around).head? := findSome?_openTagsOf n.inside n.around
  have hsize : (Assembly.ofNest n notices).parts.size = (visible n).count := by
    show (layOut 0 ((visible n).whole id)).toArray.size = _
    rw [List.size_toArray, length_layOut, Nest.whole, size_wholeOf, Nest.count]
  have hparts := layOut_add_leaf (visible n) s
  have hroots := numbers_add_leaf (visible n) s
  rw [← hvisible] at hparts hroots
  unfold Assembly.add
  rw [hparent, hsize]
  cases hhead : (openNumbers (visible n).around).head? with
  | none =>
    rw [hhead] at hparts hroots
    simp only [Assembly.ofNest, haround, hparts, hroots]
  | some parent =>
    rw [hhead] at hparts hroots
    simp only [Assembly.ofNest, haround, hparts, hroots]

/-! ## Steps -/

/-- A start tag that makes a part adds a leaf to what is shown, any other leaves it as it is. -/
theorem visible_add_leaf (n : Nest Sketch) (s : Sketch) :
    visible (n.add [⟨s, []⟩]) =
      if !isHidden n.around && isShownTag s.tag then (visible n).add [⟨s, []⟩] else visible n := by
  show visibleOf (n.inside ++ [⟨s, []⟩]) n.around = _
  rw [visibleOf_append, prune_leaf, show visibleOf n.inside n.around = visible n from rfl]
  cases isHidden n.around with
  | true => rfl
  | false =>
    cases isShownTag s.tag with
    | true => rfl
    | false => exact add_nil _

/-- Until it is left, an open value that is shown looks like a leaf. -/
theorem visible_enter (n : Nest Sketch) (s : Sketch) :
    visible (n.enter s) =
      if !isHidden n.around && isShownTag s.tag then (visible n).enter s else visible n := by
  show visibleOf [] ((n.inside, s) :: n.around) = _
  rcases around_cases n.inside s n.around with h | ⟨h, hdot⟩ | ⟨h, hdot⟩
  · rw [visibleOf_hidden _ h]
    rw [isHidden_cons, Bool.or_eq_true] at h
    rcases h with hdef | hrest
    · simp [isShownTag, hdef, visible]
    · simp [hrest, visible]
  · rw [visibleOf_dotted _ h hdot, prune_nil, add_nil]
    simp [isShownTag, hdot, visible]
  · rw [visibleOf_shown _ h hdot, prune_nil, add_nil]
    rw [isHidden_cons, Bool.or_eq_false_iff] at h
    simp [isShownTag, h.1, h.2, hdot, visible]

/-- Opening a tag takes nothing away and adds nothing but the tag itself. -/
theorem push_ofNest (n m : Nest Sketch) (notices : List Notice) (s : Sketch)
    (hshown : visible m =
      if !isHidden n.around && isShownTag s.tag then (visible n).add [⟨s, []⟩] else visible n)
    (haround : m.around = n.around) :
    (Assembly.ofNest m notices).push
        ⟨s.tag, if !isHidden n.around && isShownTag s.tag then some (visible n).count else none,
          isDefinitionTag s.tag⟩ =
      Assembly.ofNest (n.enter s) notices := by
  have hwhole : (visible (n.enter s)).whole id = (visible m).whole id := by
    rw [visible_enter, hshown]
    split
    · rfl
    · rfl
  have htags : openTagsOf (n.enter s).around =
      ⟨s.tag, if !isHidden n.around && isShownTag s.tag then some (visible n).count else none,
        isDefinitionTag s.tag⟩ :: openTagsOf n.around := by
    show openTagsOf ((n.inside, s) :: n.around) = _
    rw [openTagsOf, isHidden_cons, isShownTag]
    cases isDefinitionTag s.tag <;> cases isHidden n.around <;> cases Name.isDotted s.tag <;> rfl
  have hdefinitions : (definitionsOf (n.enter s).around : Int) =
      definitionsOf n.around + (isDefinitionTag s.tag).toNat := by
    show ((List.countP _ ((n.inside, s) :: n.around) : Nat) : Int) = _
    rw [List.countP_cons, definitionsOf]
    cases isDefinitionTag s.tag <;> simp
  simp only [Assembly.push, Assembly.ofNest, hwhole, htags, hdefinitions, haround]

/-- Taking in a start tag is a step of the full nest. -/
theorem start_ofNest (n : Nest Sketch) (notices : List Notice) (tag : StartTag) :
    (Assembly.ofNest n notices).start tag =
      Assembly.ofNest (fullStep n (.startTag tag)) notices := by
  have hsize : (Assembly.ofNest n notices).parts.size = (visible n).count := by
    show (layOut 0 ((visible n).whole id)).toArray.size = _
    rw [List.size_toArray, length_layOut, Nest.whole, size_wholeOf, Nest.count]
  have hleaf := visible_add_leaf n tag.sketch
  have hadd : (if (!isHidden n.around && isShownTag tag.name) = true
        then (Assembly.ofNest n notices).add tag.sketch else Assembly.ofNest n notices) =
      Assembly.ofNest (n.add [⟨tag.sketch, []⟩]) notices := by
    split
    · next h => exact add_ofNest n _ notices tag.sketch rfl (by rw [hleaf]; exact if_pos h)
    · next h =>
      have hsame : visible (n.add [⟨tag.sketch, []⟩]) = visible n := by
        rw [hleaf]
        exact if_neg h
      simp only [Assembly.ofNest, hsame]
      rfl
  unfold Assembly.start fullStep
  simp only [shows_ofNest, hsize, hadd]
  split
  · rfl
  · exact push_ofNest n _ notices tag.sketch hleaf rfl

/-- Closing the innermost open tag leaves the innermost value of the full nest. -/
theorem closeInnermost_ofNest (inside front : Forest Sketch) (s : Sketch)
    (rest : List (Forest Sketch × Sketch)) (notices : List Notice) (p : Position) (o : OpenTag)
    (ho : openTagsOf ((front, s) :: rest) = o :: openTagsOf rest) :
    (Assembly.ofNest ⟨inside, (front, s) :: rest⟩ notices).closeInnermost o (openTagsOf rest) p =
      Assembly.ofNest ⟨front ++ [⟨s.endAt p, inside⟩], rest⟩ notices := by
  have hclose := visibleOf_close (Sketch.endAt p) (fun _ => rfl) front inside s rest
  rw [openTagsOf, List.cons.injEq] at ho
  have hdefinitions : (definitionsOf ((front, s) :: rest) : Int) - o.isDefinition.toNat =
      definitionsOf rest := by
    rw [← ho.1, definitionsOf, List.countP_cons, definitionsOf]
    cases isDefinitionTag s.tag <;> simp
  have hparts : o.endAt p (layOut 0 ((visibleOf inside ((front, s) :: rest)).whole id)).toArray =
      (layOut 0 ((visibleOf (front ++ [⟨s.endAt p, inside⟩]) rest).whole id)).toArray := by
    rw [hclose, ← ho.1, OpenTag.endAt]
    rcases around_cases front s rest with h | ⟨h, hdot⟩ | ⟨h, hdot⟩
    · simp only [h, Bool.true_or, if_true]
    · simp only [hdot, Bool.or_true, if_true]
    · simp only [h, hdot, Bool.or_self, Bool.false_eq_true, if_false, List.modify_toArray]
      rw [visibleOf_shown _ h hdot]
      have hchange := layOut_wholeOf_change id (Sketch.endAt p) (visibleOf front rest).inside
        (prune inside) s (visibleOf front rest).around
      exact congrArg List.toArray hchange.symm
  have hroots : numbers 0 ((visibleOf inside ((front, s) :: rest)).whole id) =
      numbers 0 ((visibleOf (front ++ [⟨s.endAt p, inside⟩]) rest).whole id) := by
    rw [hclose]
    rcases around_cases front s rest with h | ⟨h, hdot⟩ | ⟨h, hdot⟩
    · simp only [h, Bool.true_or, if_true]
    · simp only [hdot, Bool.or_true, if_true]
    · simp only [h, hdot, Bool.or_self, Bool.false_eq_true, if_false]
      rw [visibleOf_shown _ h hdot]
      exact numbers_wholeOf id id _ _ _ _ _ _
  simp only [Assembly.closeInnermost, Assembly.ofNest, visible, hdefinitions, hparts, hroots]

/-- The notice that a token calls for, given the nest of all tags in front of it. -/
def noticeOf (n : Nest Sketch) : Token → List Notice
  | .endTag name p =>
    match n.around with
    | [] => [.unmatched name p.line]
    | (_, s) :: _ => if s.tag = name then [] else [.mismatched ⟨s.tag, name, p.line⟩]
  | _ => []

/-- A step of the assembly is a step of the full nest. -/
theorem step_ofNest (n : Nest Sketch) (notices : List Notice) (token : Token) :
    (Assembly.ofNest n notices).step token =
      Assembly.ofNest (fullStep n token) (noticeOf n token ++ notices) := by
  cases token with
  | startTag tag => exact start_ofNest n notices tag
  | aside ended => rfl
  | stray => rfl
  | endTag name p =>
    obtain ⟨inside, _ | ⟨⟨front, s⟩, rest⟩⟩ := n
    · rfl
    · by_cases hname : s.tag = name
      · have hnone : (Assembly.ofNest ⟨inside, (front, s) :: rest⟩ notices).mismatch?
            (.endTag name p) = none := if_pos hname
        have hnotice : noticeOf ⟨inside, (front, s) :: rest⟩ (.endTag name p) = [] :=
          if_pos hname
        rw [Assembly.step, hnone, hnotice]
        exact closeInnermost_ofNest inside front s rest notices p _ rfl
      · have hsome : (Assembly.ofNest ⟨inside, (front, s) :: rest⟩ notices).mismatch?
            (.endTag name p) = some ⟨s.tag, name, p.line⟩ := if_neg hname
        have hnotice : noticeOf ⟨inside, (front, s) :: rest⟩ (.endTag name p) =
            [.mismatched ⟨s.tag, name, p.line⟩] := if_neg hname
        rw [Assembly.step, hsome, hnotice]
        exact closeInnermost_ofNest inside front s rest _ p _ rfl

/-! ## The end of a run -/

/-- Closing all open tags ends every part that is open. -/
theorem foldr_endAt_openTagsOf (p : Position) (inside : Forest Sketch)
    (around : List (Forest Sketch × Sketch)) (parts : List Part) :
    (openTagsOf around).foldr (OpenTag.endAt p) parts.toArray =
      ((openNumbers (visibleOf inside around).around).foldr
        (fun number parts => parts.modify number (Part.endAt p)) parts).toArray := by
  induction around generalizing inside with
  | nil => rfl
  | cons o rest ih =>
    obtain ⟨front, s⟩ := o
    rw [openTagsOf, List.foldr_cons, ih front, OpenTag.endAt]
    rcases around_cases front s rest with h | ⟨h, hdot⟩ | ⟨h, hdot⟩
    · rw [visibleOf_hidden _ h]
      simp only [h, Bool.true_or, if_true]
    · rw [visibleOf_dotted _ h hdot]
      simp only [hdot, Bool.or_true, if_true]
      rfl
    · rw [visibleOf_shown _ h hdot]
      simp only [h, hdot, Bool.or_self, Bool.false_eq_true, if_false, List.modify_toArray]
      rfl

/-- When all open tags have been closed, the parts are those of what is shown. -/
theorem parts_closeAll_ofNest (n : Nest Sketch) (notices : List Notice) (p : Position) :
    ((Assembly.ofNest n notices).closeAll p).parts =
      (layOut 0 (prune (n.whole (Sketch.endAt p)))).toArray := by
  have hwhole : prune (n.whole (Sketch.endAt p)) = (visible n).whole (Sketch.endAt p) :=
    prune_wholeOf (Sketch.endAt p) (fun _ => rfl) n.inside n.around
  show (openTagsOf n.around).foldr (OpenTag.endAt p)
    (layOut 0 ((visible n).whole id)).toArray = _
  rw [foldr_endAt_openTagsOf p n.inside, hwhole]
  exact congrArg List.toArray
    (foldr_endAt_openNumbers p (visible n).inside (visible n).around)

/-- The forest of an assembly is the pruned full tree, if its bounds are in order. -/
theorem forest_ofNest (n : Nest Sketch) (notices : List Notice) (p : Position)
    {forest : Forest Element}
    (h : map sketchOf forest = prune (n.whole (Sketch.endAt p))) :
    (Assembly.ofNest n notices).forest p = .ok forest := by
  have hwhole : map sketchOf forest = (visible n).whole (Sketch.endAt p) := by
    rw [h]
    exact prune_wholeOf (Sketch.endAt p) (fun _ => rfl) n.inside n.around
  have hparts := parts_closeAll_ofNest n notices p
  have hroots : numbers 0 ((visible n).whole id) = numbers 0 forest := by
    rw [← numbers_map sketchOf, hwhole]
    obtain ⟨inside, _ | ⟨⟨front, s⟩, rest⟩⟩ := visible n
    · rfl
    · exact numbers_wholeOf _ _ _ _ _ _ _ _
  have hbuild := buildForest_layOut forest
  rw [h, ← hparts, ← hroots] at hbuild
  exact hbuild

end MarkupOutline.Markup
