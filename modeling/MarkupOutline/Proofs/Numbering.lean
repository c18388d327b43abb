import MarkupOutline.Markup.Part
import MarkupOutline.Proofs.Nest

/-!
# Numbered parts

A forest of sketches can be laid out as parts: numbered in depth-first pre-order, each with the
numbers of its children (`layOut`). A nest grows at its right edge only, so the parts laid out of
it change in few ways:

* what is added at the innermost level comes behind all other parts, and the innermost open part
  gets the new numbers as children (`layOut_wholeOf_append`);
* what closes an open value changes the part with its number alone (`layOut_wholeOf_change`).
-/

namespace MarkupOutline.Markup

open Forest Nest

universe u

variable {α : Type u}

/-! ## Numbers -/

/-- The numbers of the roots of a forest whose first value has the number `k`. -/
def numbers (k : Nat) : List (Tree α) → List Nat
  | [] => []
  | t :: ts => k :: numbers (k + t.size) ts

theorem numbers_append (k : Nat) (ss ts : Forest α) :
    numbers k (ss ++ ts) = numbers k ss ++ numbers (k + size ss) ts := by
  induction ss generalizing k with
  | nil => simp [numbers]
  | cons s ss ih =>
    simp only [List.cons_append, numbers, ih, size_cons, Nat.add_assoc]

theorem le_of_mem_numbers {k i : Nat} {ts : Forest α} (h : i ∈ numbers k ts) : k ≤ i := by
  induction ts generalizing k with
  | nil => simp [numbers] at h
  | cons t ts ih =>
    rw [numbers, List.mem_cons] at h
    rcases h with rfl | h
    · exact Nat.le_refl i
    · have := ih h
      omega

/-- The numbers of the roots do not depend on the open values, nor on what stands inside them. -/
theorem numbers_wholeOf (f g : α → α) (x y front : Forest α) (a b : α)
    (rest : List (Forest α × α)) :
    numbers 0 (wholeOf f x ((front, a) :: rest)) =
      numbers 0 (wholeOf g y ((front, b) :: rest)) := by
  induction rest generalizing x y front a b with
  | nil => simp [wholeOf, numbers_append, numbers]
  | cons o rest ih => rw [wholeOf, ih, ← wholeOf]

/-! ## Laying out a forest -/

mutual

/-- The parts of a tree whose value has the number `k`. -/
def layOutTree (k : Nat) : Tree Sketch → List Part
  | ⟨s, ts⟩ => ⟨s, (numbers (k + 1) ts).toArray⟩ :: layOut (k + 1) ts

/-- The parts of a forest whose first value has the number `k`. -/
def layOut (k : Nat) : List (Tree Sketch) → List Part
  | [] => []
  | t :: ts => layOutTree k t ++ layOut (k + t.size) ts

end

@[simp]
theorem layOut_nil (k : Nat) : layOut k [] = [] := by
  rw [layOut]

theorem layOut_cons (k : Nat) (t : Tree Sketch) (ts : Forest Sketch) :
    layOut k (t :: ts) =
      ⟨t.value, (numbers (k + 1) t.children).toArray⟩ ::
        (layOut (k + 1) t.children ++ layOut (k + t.size) ts) := by
  obtain ⟨s, below⟩ := t
  rw [layOut, layOutTree, List.cons_append]

theorem length_layOut (k : Nat) (ts : Forest Sketch) : (layOut k ts).length = size ts := by
  induction ts using Forest.induct generalizing k with
  | nil => simp
  | cons t ts below beside =>
    rw [layOut_cons, List.length_cons, List.length_append, below, beside, size_cons, t.size_eq]
    omega

theorem layOut_append (k : Nat) (ss ts : Forest Sketch) :
    layOut k (ss ++ ts) = layOut k ss ++ layOut (k + size ss) ts := by
  induction ss generalizing k with
  | nil => simp
  | cons s ss ih =>
    rw [List.cons_append, layOut_cons, layOut_cons, ih, size_cons, List.cons_append,
      List.append_assoc, Nat.add_assoc]

/-! ## Growing at the right edge -/

/-- The part with more parts inside it. -/
def Part.addChildren (ns : List Nat) (part : Part) : Part :=
  { part with children := part.children ++ ns.toArray }

/-- Parts in which the innermost open one, if any, gets more children. -/
def attach (around : List (Forest Sketch × Sketch)) (ns : List Nat) (parts : List Part) :
    List Part :=
  match around with
  | [] => parts
  | (front, _) :: rest => parts.modify (countOf front rest) (Part.addChildren ns)

theorem modify_length_append {β : Type u} (g : β → β) (xs ys : List β) (y : β) :
    (xs ++ y :: ys).modify xs.length g = xs ++ g y :: ys := by
  induction xs with
  | nil => rfl
  | cons x xs ih => rw [List.cons_append, List.length_cons, List.modify_succ_cons, ih,
      List.cons_append]

theorem length_attach (around : List (Forest Sketch × Sketch)) (ns : List Nat)
    (parts : List Part) : (attach around ns parts).length = parts.length := by
  unfold attach
  split
  · rfl
  · exact List.length_modify _ _ _

/-- The part laid out right behind those of a nest has the next number. -/
theorem modify_attach_append (f : Sketch → Sketch) (g : Part → Part) (front : Forest Sketch)
    (rest : List (Forest Sketch × Sketch)) (part : Part) (parts : List Part) :
    (attach rest [countOf front rest] (layOut 0 (wholeOf f front rest)) ++ part :: parts).modify
        (countOf front rest) g =
      attach rest [countOf front rest] (layOut 0 (wholeOf f front rest)) ++ g part :: parts := by
  have hlength : (attach rest [countOf front rest] (layOut 0 (wholeOf f front rest))).length =
      countOf front rest := by
    rw [length_attach, length_layOut, size_wholeOf]
  have hmodify := modify_length_append g
    (attach rest [countOf front rest] (layOut 0 (wholeOf f front rest))) parts part
  rw [hlength] at hmodify
  exact hmodify

/-- What is added at the innermost level comes behind all parts there are, and its roots become
children of the innermost open part. -/
theorem layOut_wholeOf_append (f : Sketch → Sketch) (x y : Forest Sketch)
    (around : List (Forest Sketch × Sketch)) :
    layOut 0 (wholeOf f (x ++ y) around) =
      attach around (numbers (countOf x around) y) (layOut 0 (wholeOf f x around)) ++
        layOut (countOf x around) y := by
  induction around generalizing x y with
  | nil => simp only [wholeOf, countOf, attach, layOut_append, Nat.zero_add]
  | cons o rest ih =>
    obtain ⟨front, a⟩ := o
    have hsplit : ∀ z : Forest Sketch, layOut 0 (wholeOf f z ((front, a) :: rest)) =
        attach rest [countOf front rest] (layOut 0 (wholeOf f front rest)) ++
          ⟨f a, (numbers (countOf front rest + 1) z).toArray⟩ ::
            layOut (countOf front rest + 1) z := by
      intro z
      rw [wholeOf, ih, numbers, numbers, layOut_cons, layOut_nil, List.append_nil]
    have hcount : countOf x ((front, a) :: rest) = countOf front rest + 1 + size x := by
      rw [countOf, Nat.add_assoc]
    -- the part that gets the children is the one right behind those that stand before it
    have hattach : ∀ (ns : List Nat) (part : Part) (parts : List Part),
        attach ((front, a) :: rest) ns
            (attach rest [countOf front rest] (layOut 0 (wholeOf f front rest)) ++ part :: parts) =
          attach rest [countOf front rest] (layOut 0 (wholeOf f front rest)) ++
            part.addChildren ns :: parts := by
      intro ns part parts
      exact modify_attach_append f (Part.addChildren ns) front rest part parts
    rw [hsplit, hsplit, hattach, numbers_append, layOut_append, hcount]
    simp [Part.addChildren]

/-- A change of an open value changes the part with its number and no other. -/
theorem layOut_wholeOf_change (f g : Sketch → Sketch) (front inside : Forest Sketch) (s : Sketch)
    (rest : List (Forest Sketch × Sketch)) :
    layOut 0 (wholeOf f (front ++ [⟨g s, inside⟩]) rest) =
      (layOut 0 (wholeOf f (front ++ [⟨s, inside⟩]) rest)).modify (countOf front rest)
        fun part => { part with sketch := g part.sketch } := by
  have hsplit : ∀ s : Sketch, layOut 0 (wholeOf f (front ++ [⟨s, inside⟩]) rest) =
      attach rest [countOf front rest] (layOut 0 (wholeOf f front rest)) ++
        ⟨s, (numbers (countOf front rest + 1) inside).toArray⟩ ::
          layOut (countOf front rest + 1) inside := by
    intro s
    rw [layOut_wholeOf_append, numbers, numbers, layOut_cons, layOut_nil, List.append_nil]
  rw [hsplit, hsplit, modify_attach_append]

/-! ## Closing all that is open -/

/-- The numbers of the open values, innermost first. -/
def openNumbers : List (Forest Sketch × Sketch) → List Nat
  | [] => []
  | (front, _) :: rest => countOf front rest :: openNumbers rest

/-- Closing the open parts one by one closes all values of the nest. -/
theorem foldr_endAt_openNumbers (p : Position) (inside : Forest Sketch)
    (around : List (Forest Sketch × Sketch)) :
    (openNumbers around).foldr (fun number parts => parts.modify number (Part.endAt p))
        (layOut 0 (wholeOf id inside around)) =
      layOut 0 (wholeOf (Sketch.endAt p) inside around) := by
  induction around generalizing inside with
  | nil => rfl
  | cons o rest ih =>
    rw [openNumbers, List.foldr_cons, wholeOf, id_eq, ih, wholeOf, layOut_wholeOf_change]
    rfl

end MarkupOutline.Markup
