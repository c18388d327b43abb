import MarkupOutline.Tree

/-!
# Equations of the walk

The walk is computed with a list of work, the fold by going through the walk backwards. Here both
are shown to follow the shape of the forest: `walkFrom_cons` and `fold_cons` say what they do with
the first tree of a forest, and `Forest.induct` is the induction that goes with them.
-/

namespace MarkupOutline.Forest

universe u v w

variable {α : Type u} {β : Type v}

/-- Induction over a forest: what holds below its first tree and of the other trees holds of the
whole. -/
@[elab_as_elim]
theorem induct {motive : Forest α → Prop} (nil : motive [])
    (cons : ∀ t ts, motive t.children → motive ts → motive (t :: ts)) (ts : Forest α) :
    motive ts :=
  match ts with
  | [] => nil
  | t :: ts => cons t ts (induct nil cons t.children) (induct nil cons ts)
termination_by size ts
decreasing_by
  · have := t.size_eq
    simp only [size_cons]
    omega
  · have := t.size_eq
    simp only [size_cons]
    omega

/-! ## The walk of a forest -/

theorem walkOnto_append (done : Array (Nat × Tree α)) (work more : List (Nat × Tree α)) :
    walkOnto done (work ++ more) = walkOnto (walkOnto done work) more := by
  fun_induction walkOnto done work with
  | case1 done => rfl
  | case2 done depth t rest ih => rw [← ih, List.cons_append, walkOnto, List.append_assoc]

theorem toList_walkOnto_atDepth (ts : Forest α) (done : Array (Nat × Tree α)) (depth : Nat) :
    (walkOnto done (atDepth depth ts)).toList = done.toList ++ walkFrom depth ts := by
  induction ts using induct generalizing done depth with
  | nil => simp [walkFrom, atDepth, walkOnto]
  | cons t ts below beside =>
    have split : ∀ done : Array (Nat × Tree α), (walkOnto done (atDepth depth (t :: ts))).toList =
        done.toList ++ (depth, t) :: (walkFrom (depth + 1) t.children ++ walkFrom depth ts) := by
      intro done
      have first : atDepth depth (t :: ts) = (depth, t) :: atDepth depth ts := rfl
      rw [first, walkOnto, walkOnto_append, beside, below, Array.toList_push]
      simp
    rw [split, show walkFrom depth (t :: ts) = _ from split #[]]
    simp

@[simp]
theorem walkFrom_nil (depth : Nat) : walkFrom depth ([] : Forest α) = [] := by
  simp [walkFrom, atDepth, walkOnto]

/-- A tree comes before those below it, and these before the trees beside it. -/
@[simp]
theorem walkFrom_cons (depth : Nat) (t : Tree α) (ts : Forest α) :
    walkFrom depth (t :: ts) =
      (depth, t) :: (walkFrom (depth + 1) t.children ++ walkFrom depth ts) := by
  have first : atDepth depth (t :: ts) = (depth, t) :: atDepth depth ts := rfl
  rw [walkFrom, first, walkOnto, walkOnto_append, toList_walkOnto_atDepth,
    toList_walkOnto_atDepth]
  simp

theorem walkFrom_append (depth : Nat) (ss ts : Forest α) :
    walkFrom depth (ss ++ ts) = walkFrom depth ss ++ walkFrom depth ts := by
  induction ss with
  | nil => simp
  | cons s ss ih => simp [ih]

theorem length_walkFrom (depth : Nat) (ts : Forest α) : (walkFrom depth ts).length = size ts := by
  induction ts using induct generalizing depth with
  | nil => simp
  | cons t ts below beside =>
    simp only [walkFrom_cons, List.length_cons, List.length_append, below, beside, size_cons,
      t.size_eq]
    omega

theorem count_eq_size (ts : Forest α) : count ts = size ts :=
  length_walkFrom 0 ts

/-! ## The subtrees -/

/-- The subtrees in depth-first pre-order, without their depths. -/
def subtrees (ts : Forest α) : Forest α :=
  (walk ts).map (·.2)

/-- Where the roots stand makes no difference to the subtrees. -/
theorem map_snd_walkFrom (depth : Nat) (ts : Forest α) :
    (walkFrom depth ts).map (·.2) = subtrees ts := by
  suffices h : ∀ depth depth', (walkFrom depth ts).map (·.2) = (walkFrom depth' ts).map (·.2) from
    h depth 0
  induction ts using induct with
  | nil => simp
  | cons t ts below beside =>
    intro depth depth'
    simp only [walkFrom_cons, List.map_cons, List.map_append]
    rw [below (depth + 1) (depth' + 1), beside depth depth']

@[simp]
theorem subtrees_nil : subtrees ([] : Forest α) = [] := by
  simp [subtrees, walk]

/-- A tree comes before those below it, and these before the trees beside it. -/
@[simp]
theorem subtrees_cons (t : Tree α) (ts : Forest α) :
    subtrees (t :: ts) = t :: (subtrees t.children ++ subtrees ts) := by
  rw [← map_snd_walkFrom 0, walkFrom_cons, List.map_cons, List.map_append, map_snd_walkFrom,
    map_snd_walkFrom]

@[simp]
theorem subtrees_append (ss ts : Forest α) : subtrees (ss ++ ts) = subtrees ss ++ subtrees ts := by
  rw [subtrees, walk, walkFrom_append, List.map_append]
  rfl

/-- The values are those of the subtrees. -/
theorem values_eq_map_subtrees (ts : Forest α) :
    values ts = List.map Tree.value (subtrees ts) := by
  rw [values, subtrees, List.map_map]
  rfl

@[simp]
theorem values_nil : values ([] : Forest α) = [] := by
  rw [values_eq_map_subtrees, subtrees_nil, List.map_nil]

@[simp]
theorem values_cons (t : Tree α) (ts : Forest α) :
    values (t :: ts) = t.value :: (values t.children ++ values ts) := by
  simp [values_eq_map_subtrees]

@[simp]
theorem values_append (ss ts : Forest α) : values (ss ++ ts) = values ss ++ values ts := by
  simp [values_eq_map_subtrees]

/-! ## The fold -/

theorem foldr_graft_walkFrom (f : α → List β → β) (ts : Forest α) (depth : Nat) (made : List β) :
    (walkFrom depth ts).foldr (fun (_, t) made => graft f t made) made = fold f ts ++ made ∧
      (fold f ts).length = ts.length := by
  induction ts using induct generalizing depth made with
  | nil => simp [fold, walk]
  | cons t ts below beside =>
    have split : ∀ depth made, (walkFrom depth (t :: ts)).foldr
        (fun (_, t) made => graft f t made) made =
          f t.value (fold f t.children) :: (fold f ts ++ made) := by
      intro depth made
      rw [walkFrom_cons, List.foldr_cons, List.foldr_append, (beside depth made).1,
        (below (depth + 1) _).1]
      simp [graft, ← (below 0 []).2]
    have whole : fold f (t :: ts) = f t.value (fold f t.children) :: fold f ts := by
      rw [fold, walk, split, List.append_nil]
    rw [split, whole]
    simp [(beside 0 []).2]

@[simp]
theorem fold_nil (f : α → List β → β) : fold f ([] : Forest α) = [] := by
  simp [fold, walk]

/-- The result for a tree is made from the results for its children. -/
@[simp]
theorem fold_cons (f : α → List β → β) (t : Tree α) (ts : Forest α) :
    fold f (t :: ts) = f t.value (fold f t.children) :: fold f ts := by
  have below := foldr_graft_walkFrom f t.children
  rw [fold, walk, walkFrom_cons, List.foldr_cons, List.foldr_append,
    (foldr_graft_walkFrom f ts 0 []).1, (below 1 _).1]
  simp [graft, ← (below 0 []).2]

@[simp]
theorem length_fold (f : α → List β → β) (ts : Forest α) : (fold f ts).length = ts.length :=
  (foldr_graft_walkFrom f ts 0 []).2

/-! ## The map -/

@[simp]
theorem map_nil (f : α → β) : map f ([] : Forest α) = [] := by
  simp [map]

@[simp]
theorem map_cons (f : α → β) (t : Tree α) (ts : Forest α) :
    map f (t :: ts) = ⟨f t.value, map f t.children⟩ :: map f ts := by
  simp [map]

theorem map_append (f : α → β) (ss ts : Forest α) : map f (ss ++ ts) = map f ss ++ map f ts := by
  induction ss with
  | nil => simp
  | cons s ss ih => rw [List.cons_append, map_cons, map_cons, ih, List.cons_append]

theorem map_map {γ : Type w} (g : β → γ) (f : α → β) (ts : Forest α) :
    map g (map f ts) = map (g ∘ f) ts := by
  induction ts using induct with
  | nil => simp
  | cons t ts below beside => simp [below, beside]

theorem values_map (f : α → β) (ts : Forest α) : values (map f ts) = List.map f (values ts) := by
  induction ts using induct with
  | nil => simp
  | cons t ts below beside => simp [below, beside]

/-- A map changes the trees of the walk and nothing else. -/
theorem walkFrom_map (f : α → β) (ts : Forest α) (depth : Nat) :
    walkFrom depth (map f ts) =
      (walkFrom depth ts).map fun (depth, t) => (depth, ⟨f t.value, map f t.children⟩) := by
  induction ts using induct generalizing depth with
  | nil => simp
  | cons t ts below beside => simp [below, beside]

theorem subtrees_map (f : α → β) (ts : Forest α) :
    subtrees (map f ts) = List.map (fun t => ⟨f t.value, map f t.children⟩) (subtrees ts) := by
  rw [subtrees, walk, walkFrom_map, List.map_map, subtrees, walk, List.map_map]
  rfl

/-- Forests that a map tells apart in no way are equal if it tells all values apart. -/
theorem map_injective {f : α → β} (hf : ∀ a b, f a = f b → a = b) {ss ts : Forest α}
    (h : map f ss = map f ts) : ss = ts := by
  induction ss using induct generalizing ts with
  | nil =>
    cases ts with
    | nil => rfl
    | cons t ts => simp at h
  | cons s ss below beside =>
    cases ts with
    | nil => simp at h
    | cons t ts =>
      rw [map_cons, map_cons, List.cons.injEq, Tree.mk.injEq] at h
      have hvalue : s.value = t.value := hf _ _ h.1.1
      have hchildren : s.children = t.children := below h.1.2
      have hfirst : s = t := by
        cases s
        cases t
        rw [Tree.mk.injEq]
        exact ⟨hvalue, hchildren⟩
      rw [hfirst, beside h.2]

end MarkupOutline.Forest
