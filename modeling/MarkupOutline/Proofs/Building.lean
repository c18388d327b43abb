import MarkupOutline.Proofs.Numbering

/-!
# Building numbered parts

Parts are built from the last to the first. When they are laid out of a forest, every part that is
asked for has been built by then, and what comes out is the forest (`buildForest_layOut`).
-/

namespace MarkupOutline.Markup

open Forest

/-- An element as a sketch. -/
def sketchOf (e : Element) : Sketch :=
  ⟨e.tag, e.attributes, e.label, e.kind, e.span.start, e.span.stop⟩

theorem element_sketchOf (e : Element) : (sketchOf e).element = .ok e := by
  unfold Sketch.element Span.ofBounds
  rw [dif_pos (show (sketchOf e).start ≤ (sketchOf e).stop from e.span.start_le_stop)]
  rfl

/-- A sketch tells all of its element. -/
theorem sketchOf_injective {e f : Element} (h : sketchOf e = sketchOf f) : e = f := by
  have hok : (Except.ok e : Except Flaw Element) = .ok f := by
    rw [← element_sketchOf, ← element_sketchOf, h]
  exact Except.ok.inj hok

/-- Bounds in order make an element. -/
theorem exists_sketchOf_eq {s : Sketch} (h : s.start ≤ s.stop) : ∃ e, sketchOf e = s :=
  ⟨⟨s.tag, s.attributes, s.label, s.kind, ⟨s.start, s.stop, h⟩⟩, rfl⟩

@[simp]
theorem size_map {α β : Type} (f : α → β) (ts : Forest α) : size (map f ts) = size ts := by
  induction ts using Forest.induct with
  | nil => simp
  | cons t ts below beside => simp [below, beside, Tree.size_eq]

/-- The numbers of a forest depend on its shape alone. -/
theorem numbers_map {α β : Type} (f : α → β) (k : Nat) (ts : Forest α) :
    numbers k (map f ts) = numbers k ts := by
  induction ts generalizing k with
  | nil => simp [numbers]
  | cons t ts ih =>
    rw [map_cons, numbers, numbers, ih]
    simp [Tree.size_eq]

/-! ## The trees built so far -/

theorem tree_of_getElem? {built : Built} {i : Nat} {t : Tree Element}
    (h : built[i]? = some (some t)) : built.tree i = .ok t := by
  rw [Built.tree, h]

theorem tree_congr {built built' : Built} {i : Nat} (h : built'[i]? = built[i]?) :
    built'.tree i = built.tree i := by
  rw [Built.tree, Built.tree, h]

/-- Looking up trees depends on the numbers looked up and on no other. -/
theorem mapM_tree_congr {built built' : Built} {ns : List Nat}
    (h : ∀ i ∈ ns, built'[i]? = built[i]?) : ns.mapM built'.tree = ns.mapM built.tree := by
  induction ns with
  | nil => rfl
  | cons n ns ih =>
    rw [List.mapM_cons, List.mapM_cons, tree_congr (h n List.mem_cons_self),
      ih fun i hi => h i (List.mem_cons_of_mem n hi)]

theorem buildBelow_congr {parts : Array Part} {m n : Nat} (hmn : m = n) (hm : m ≤ parts.size)
    (hn : n ≤ parts.size) (built : Built) :
    buildBelow parts m hm built = buildBelow parts n hn built := by
  subst hmn
  rfl

/-- A part whose children have been built is built next. -/
theorem buildBelow_succ {parts : Array Part} {k : Nat} (h : k + 1 ≤ parts.size) {built : Built}
    {t : Tree Element} (hpart : parts[k] = ⟨sketchOf t.value, (numbers (k + 1) t.children).toArray⟩)
    (hchildren : (numbers (k + 1) t.children).mapM built.tree = .ok t.children) :
    buildBelow parts (k + 1) h built =
      buildBelow parts k (Nat.le_of_succ_le h) (built.setIfInBounds k (some t)) := by
  have htree : parts[k].tree built = .ok t := by
    rw [hpart, Part.tree, element_sketchOf, List.toList_toArray, hchildren]
    cases t
    rfl
  rw [buildBelow, htree]

/-- Once the first tree of a forest has been built, after all others, the whole forest can be
looked up. -/
theorem mapM_tree_numbers_cons {built built' : Built} {k : Nat} {t : Tree Element}
    {ts : Forest Element} (hk : k < built.size)
    (hsame : ∀ i, k + t.size ≤ i → built[i]? = built'[i]?)
    (htrees : (numbers (k + t.size) ts).mapM built'.tree = .ok ts) :
    (numbers k (t :: ts)).mapM (Built.tree (built.setIfInBounds k (some t))) = .ok (t :: ts) := by
  have ht : t.size = 1 + size t.children := t.size_eq
  have hfirst : Built.tree (built.setIfInBounds k (some t)) k = .ok t := by
    apply tree_of_getElem?
    rw [Array.getElem?_setIfInBounds_self_of_lt hk]
  have hothers : (numbers (k + t.size) ts).mapM (Built.tree (built.setIfInBounds k (some t))) =
      .ok ts := by
    rw [← htrees]
    apply mapM_tree_congr
    intro i hi
    have hle := le_of_mem_numbers hi
    rw [Array.getElem?_setIfInBounds_ne (by omega), hsame i hle]
  rw [numbers, List.mapM_cons, hfirst, hothers]
  rfl

/-- Building the parts laid out of a forest leaves its trees at the numbers of its roots, and leaves
all greater numbers alone. -/
theorem buildBelow_layOut (parts : Array Part) (ts : Forest Element) (k : Nat)
    (before after : List Part) (hk : before.length = k)
    (hparts : parts.toList = before ++ layOut k (map sketchOf ts) ++ after)
    (hn : k + size ts ≤ parts.size) (built : Built) (hsize : built.size = parts.size) :
    ∃ built' : Built, built'.size = parts.size ∧
      buildBelow parts (k + size ts) hn built =
        buildBelow parts k (Nat.le_of_add_right_le hn) built' ∧
      (∀ i, k + size ts ≤ i → built'[i]? = built[i]?) ∧
      (numbers k ts).mapM built'.tree = .ok ts := by
  induction ts using Forest.induct generalizing k before after built with
  | nil => exact ⟨built, hsize, rfl, fun i _ => rfl, rfl⟩
  | cons t ts below beside =>
    have ht : t.size = 1 + size t.children := t.size_eq
    have hts : size (t :: ts) = t.size + size ts := size_cons t ts
    rw [map_cons, layOut_cons] at hparts
    have hmap : Tree.size (⟨sketchOf t.value, map sketchOf t.children⟩ : Tree Sketch) = t.size := by
      rw [Tree.size_eq, size_map, ht]
    simp only [numbers_map, hmap] at hparts
    -- the trees beside the first come last, so they are built first
    obtain ⟨built₁, hsize₁, hbuild₁, hsame₁, htrees₁⟩ := beside (k + t.size)
      (before ++ (⟨sketchOf t.value, (numbers (k + 1) t.children).toArray⟩ ::
        layOut (k + 1) (map sketchOf t.children))) after
      (by rw [List.length_append, List.length_cons, length_layOut, size_map, hk, ht]; omega)
      (by rw [hparts]; simp) (by omega) built hsize
    -- then those inside it
    obtain ⟨built₂, hsize₂, hbuild₂, hsame₂, htrees₂⟩ := below (k + 1)
      (before ++ [⟨sketchOf t.value, (numbers (k + 1) t.children).toArray⟩])
      (layOut (k + t.size) (map sketchOf ts) ++ after)
      (by rw [List.length_append, hk, List.length_singleton])
      (by rw [hparts]; simp) (by omega) built₁ hsize₁
    -- and then the first tree itself
    have hlt : k < parts.size := by omega
    have hpart : parts[k] = ⟨sketchOf t.value, (numbers (k + 1) t.children).toArray⟩ := by
      rw [← Array.getElem_toList hlt]
      simp [hparts, ← hk]
    refine ⟨built₂.setIfInBounds k (some t), ?_, ?_, ?_, ?_⟩
    · rw [Array.size_setIfInBounds, hsize₂]
    · rw [buildBelow_congr (show k + size (t :: ts) = k + t.size + size ts by omega) hn (by omega),
        hbuild₁, buildBelow_congr (show k + t.size = k + 1 + size t.children by omega) (by omega)
          (by omega), hbuild₂]
      exact buildBelow_succ hlt hpart htrees₂
    · intro i hi
      rw [Array.getElem?_setIfInBounds_ne (by omega), hsame₂ i (by omega), hsame₁ i (by omega)]
    · exact mapM_tree_numbers_cons (by omega) (fun i hi => hsame₂ i (by omega)) htrees₁

/-- Building the parts laid out of a forest gives the forest. -/
theorem buildForest_layOut (ts : Forest Element) :
    buildForest (layOut 0 (map sketchOf ts)).toArray (numbers 0 ts).toArray = .ok ts := by
  have hsize : (layOut 0 (map sketchOf ts)).toArray.size = 0 + size ts := by
    rw [List.size_toArray, length_layOut, size_map, Nat.zero_add]
  obtain ⟨built, _, hbuild, _, htrees⟩ := buildBelow_layOut
    (layOut 0 (map sketchOf ts)).toArray ts 0 [] [] rfl (by simp)
    (Nat.le_of_eq hsize.symm) _ Array.size_replicate
  rw [buildForest, buildBelow_congr hsize _ (Nat.le_of_eq hsize.symm), hbuild,
    List.toList_toArray]
  exact htrees

end MarkupOutline.Markup
