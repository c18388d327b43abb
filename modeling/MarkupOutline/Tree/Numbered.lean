import MarkupOutline.Tree.Walk

/-!
# Numbered forests

The map of a forest can be made in two loops. The first numbers the values in depth-first pre-order
and takes note of the number right above each. The second goes through the numbers backwards, so
that all below a value is made before the value itself: children are collected back to front, and
turned round when their parent comes. `mapNumbered_eq_map` says that what is made is the map.
-/

namespace MarkupOutline.Forest

universe u v

variable {α : Type u} {β : Type v}

/-! ## The two loops -/

/-- A value and the number of the one right above it, if there is one. -/
structure Numbered (α : Type u) where
  value : α
  parent : Option Nat

/-- The trees of a forest, all below one number or all roots. -/
def atParent (parent : Option Nat) (ts : Forest α) : List (Option Nat × Tree α) :=
  List.map (fun t => (parent, t)) ts

@[simp]
theorem map_snd_atParent (parent : Option Nat) (ts : Forest α) :
    List.map (·.2) (atParent parent ts) = ts := by
  simp [atParent, Function.comp_def]

/-- Appends to `done` the values of the trees still to be visited. The number of a value is how many
are done before it. -/
def numberOnto (done : Array (Numbered α)) : List (Option Nat × Tree α) → Array (Numbered α)
  | [] => done
  | (parent, t) :: rest =>
    numberOnto (done.push ⟨t.value, parent⟩) (atParent (some done.size) t.children ++ rest)
termination_by work => size (work.map (·.2))
decreasing_by
  have := t.size_eq
  simp only [List.map_append, map_snd_atParent, List.map_cons, size_append, size_cons]
  omega

/-- The values in depth-first pre-order. -/
def number (ts : Forest α) : Array (Numbered α) :=
  numberOnto #[] (atParent none ts)

/-- What has been made from the last number on: the trees below each number and the roots, both back
to front. -/
structure Made (β : Type v) where
  children : Array (Array (Tree β))
  roots : Array (Tree β)

/-- Adds a tree below a number, or as a root. -/
def Made.add (m : Made β) (parent : Option Nat) (t : Tree β) : Made β :=
  match parent with
  | some parent => { m with children := m.children.modify parent (·.push t) }
  | none => { m with roots := m.roots.push t }

/-- Adds the tree of the value with the number `n`, of the trees that have been made below it. -/
def Made.addValue (f : α → β) (n : Nat) (x : Numbered α) (m : Made β) : Made β :=
  m.add x.parent ⟨f x.value, (m.children.getD n #[]).reverse.toList⟩

/-- The forest of the same shape with `f` applied to every value. -/
def mapNumbered (f : α → β) (ts : Forest α) : Forest β :=
  let numbered := number ts
  let nothing : Made β := ⟨Array.replicate numbered.size #[], #[]⟩
  let made := numbered.zipIdx.foldr (fun x m => m.addValue f x.2 x.1) nothing
  made.roots.reverse.toList

/-! ## Numbers -/

/-- The values of a forest that stands below a number, if any, and whose first value has the number
`k`. -/
def numberFrom (parent : Option Nat) (k : Nat) : Forest α → List (Numbered α)
  | [] => []
  | t :: ts =>
    ⟨t.value, parent⟩ ::
      (numberFrom (some k) (k + 1) t.children ++ numberFrom parent (k + t.size) ts)
termination_by ts => size ts
decreasing_by
  all_goals
    have := t.size_eq
    simp only [size_cons]
    omega

theorem length_numberFrom (parent : Option Nat) (k : Nat) (ts : Forest α) :
    (numberFrom parent k ts).length = size ts := by
  induction ts using induct generalizing parent k with
  | nil => simp [numberFrom]
  | cons t ts below beside =>
    rw [numberFrom, List.length_cons, List.length_append, below, beside, size_cons, t.size_eq]
    omega

/-- The loop takes trees from the front of its work and comes back to the rest of it. -/
theorem numberOnto_append (done : Array (Numbered α)) (parent : Option Nat) (ts : Forest α)
    (rest : List (Option Nat × Tree α)) :
    numberOnto done (atParent parent ts ++ rest) =
      numberOnto (done ++ (numberFrom parent done.size ts).toArray) rest := by
  induction ts using induct generalizing done parent rest with
  | nil => simp [numberFrom, atParent]
  | cons t ts below beside =>
    have first : atParent parent (t :: ts) = (parent, t) :: atParent parent ts := rfl
    rw [first, List.cons_append, numberOnto, below, beside, numberFrom]
    have hsize : (done.push ⟨t.value, parent⟩ ++
        (numberFrom (some done.size) (done.push ⟨t.value, parent⟩).size t.children).toArray).size =
          done.size + t.size := by
      simp [length_numberFrom, t.size_eq, Nat.add_comm]
    rw [hsize]
    simp

theorem toList_number (ts : Forest α) : (number ts).toList = numberFrom none 0 ts := by
  have hloop := numberOnto_append #[] none ts []
  rw [List.append_nil, numberOnto] at hloop
  rw [number, hloop]
  simp

/-! ## What is made -/

namespace Made

/-- Nothing below `k` has been made differently. -/
structure Agrees (k : Nat) (m m' : Made β) : Prop where
  children : ∀ i < k, m.children[i]? = m'.children[i]?
  roots : m.roots = m'.roots

variable {k : Nat} {m m' m'' : Made β} {parent : Option Nat}

theorem Agrees.mono {j : Nat} (h : Agrees k m m') (hj : j ≤ k) : Agrees j m m' :=
  ⟨fun i hi => h.children i (Nat.lt_of_lt_of_le hi hj), h.roots⟩

theorem Agrees.trans (h : Agrees k m m') (h' : Agrees k m' m'') : Agrees k m m'' :=
  ⟨fun i hi => (h.children i hi).trans (h'.children i hi), h.roots.trans h'.roots⟩

theorem getElem?_children_add (m : Made β) (parent : Option Nat) (t : Tree β) (i : Nat) :
    (m.add parent t).children[i]? =
      if parent = some i then m.children[i]?.map (·.push t) else m.children[i]? := by
  cases parent with
  | none => simp [add]
  | some p =>
    simp [add, Array.getElem?_modify]

theorem roots_add (m : Made β) (parent : Option Nat) (t : Tree β) :
    (m.add parent t).roots = if parent = none then m.roots.push t else m.roots := by
  cases parent with
  | none => rfl
  | some p => rfl

theorem Agrees.add (h : Agrees k m m') (parent : Option Nat) (t : Tree β) :
    Agrees k (m.add parent t) (m'.add parent t) where
  children i hi := by
    rw [getElem?_children_add, getElem?_children_add, h.children i hi]
  roots := by
    rw [roots_add, roots_add, h.roots]

/-- What is added below a number that is not in view makes no difference. -/
theorem agrees_add {j : Nat} (hj : k ≤ j) (m : Made β) (t : Tree β) :
    Agrees k (m.add (some j) t) m where
  children i hi := by
    rw [getElem?_children_add, if_neg]
    rw [Option.some.injEq]
    omega
  roots := rfl

/-- Adds some trees, the last one first. -/
def addAll (m : Made β) (parent : Option Nat) (ts : Forest β) : Made β :=
  ts.foldr (fun t m => m.add parent t) m

theorem agrees_addAll {j : Nat} (hj : k ≤ j) (m : Made β) (ts : Forest β) :
    Agrees k (m.addAll (some j) ts) m := by
  induction ts with
  | nil => exact ⟨fun _ _ => rfl, rfl⟩
  | cons t ts ih => exact (agrees_add hj _ t).trans ih

/-- Trees added below a number are collected there back to front. -/
theorem getElem?_children_addAll (m : Made β) (parent : Option Nat) (ts : Forest β) (i : Nat) :
    (m.addAll parent ts).children[i]? =
      if parent = some i then m.children[i]?.map (· ++ (List.reverse ts).toArray)
      else m.children[i]? := by
  induction ts with
  | nil => simp [addAll]
  | cons t ts ih =>
    show ((m.addAll parent ts).add parent t).children[i]? = _
    rw [getElem?_children_add, ih]
    by_cases hparent : parent = some i
    · simp [hparent, Function.comp_def]
    · simp [hparent]

theorem roots_addAll_none (m : Made β) (ts : Forest β) :
    (m.addAll none ts).roots = m.roots ++ (List.reverse ts).toArray := by
  induction ts with
  | nil => simp [addAll]
  | cons t ts ih =>
    show (m.addAll none ts).roots.push t = _
    rw [ih]
    simp

end Made

/-- Going backwards through the numbers of a forest adds its map, the last tree first, to what has
been made. What has been collected below these numbers is of no more use then. -/
theorem agrees_foldr_addValue (f : α → β) (ts : Forest α) (k : Nat) (parent : Option Nat)
    (hparent : ∀ p ∈ parent, p < k) (m : Made β)
    (hempty : ∀ i, k ≤ i → i < k + size ts → m.children[i]? = some #[]) :
    Made.Agrees k
      (((numberFrom parent k ts).zipIdx k).foldr (fun x m => m.addValue f x.2 x.1) m)
      (m.addAll parent (map f ts)) := by
  induction ts using induct generalizing k parent m with
  | nil =>
    rw [numberFrom, map_nil]
    exact ⟨fun _ _ => rfl, rfl⟩
  | cons t ts below beside =>
    have hsize := t.size_eq
    rw [size_cons] at hempty
    have hnone : ∀ i, k ≤ i → parent ≠ some i := by
      intro i hi hsome
      have hlt := hparent i hsome
      omega
    -- first come the trees beside, then those below, and the value last
    have hbeside := beside (k + t.size) parent (fun p hp => Nat.lt_add_right _ (hparent p hp)) m
      fun i hi hlt => hempty i (by omega) (by omega)
    generalize hm₁ : ((numberFrom parent (k + t.size) ts).zipIdx (k + t.size)).foldr
      (fun x m => m.addValue f x.2 x.1) m = m₁ at hbeside
    have hkept : ∀ i, k ≤ i → i < k + t.size → m₁.children[i]? = some #[] := by
      intro i hi hlt
      rw [hbeside.children i hlt, Made.getElem?_children_addAll, if_neg (hnone i hi)]
      exact hempty i hi (by omega)
    have hbelow := below (k + 1) (some k) (by simp) m₁ fun i hi hlt =>
      hkept i (by omega) (by omega)
    generalize hm₂ : ((numberFrom (some k) (k + 1) t.children).zipIdx (k + 1)).foldr
      (fun x m => m.addValue f x.2 x.1) m₁ = m₂ at hbelow
    have hchildren : m₂.children[k]? = some (List.reverse (map f t.children)).toArray := by
      rw [hbelow.children k (Nat.lt_succ_self k), Made.getElem?_children_addAll, if_pos rfl,
        hkept k (Nat.le_refl k) (by omega)]
      simp
    have hagrees : Made.Agrees k m₂ (m.addAll parent (map f ts)) :=
      ((hbelow.mono (Nat.le_succ k)).trans (Made.agrees_addAll (Nat.le_refl k) _ _)).trans
        (hbeside.mono (Nat.le_add_right k _))
    have hvalue := hagrees.add parent ⟨f t.value, map f t.children⟩
    have hnext : k + 1 + (numberFrom (some k) (k + 1) t.children).length = k + t.size := by
      rw [length_numberFrom, hsize, Nat.add_assoc]
    rw [numberFrom, List.zipIdx_cons, List.foldr_cons, List.zipIdx_append, List.foldr_append, hnext,
      hm₁, hm₂, map_cons]
    have hmade : m₂.addValue f k ⟨t.value, parent⟩ =
        m₂.add parent ⟨f t.value, map f t.children⟩ := by
      rw [Made.addValue, Array.getD_eq_getD_getElem?, hchildren]
      simp
    rw [hmade]
    exact hvalue

/-- The two loops make the map of a forest. -/
theorem mapNumbered_eq_map (f : α → β) (ts : Forest α) : mapNumbered f ts = map f ts := by
  have hsize : (number ts).size = size ts := by
    rw [← Array.length_toList, toList_number, length_numberFrom]
  have hempty : ∀ i, 0 ≤ i → i < 0 + size ts →
      (Array.replicate (number ts).size (#[] : Array (Tree β)))[i]? = some #[] := by
    intro i _ hi
    rw [Array.getElem?_replicate, if_pos (by omega)]
  have hroots := (agrees_foldr_addValue f ts 0 none (by simp)
    ⟨Array.replicate (number ts).size #[], #[]⟩ hempty).roots
  rw [Made.roots_addAll_none] at hroots
  rw [mapNumbered, ← Array.foldr_toList, Array.toList_zipIdx, toList_number, hroots]
  simp

end MarkupOutline.Forest
