import MarkupOutline.Markup.Assembly
import MarkupOutline.Outline

/-!
# The cache

A cache has one slot. It remembers the forest of the document asked for last, and the outline made
of it, under a key that names the document, its version, a fingerprint of its text, and whether
outlines show line numbers. Looking up any other key empties the slot.
-/

namespace MarkupOutline

/-- What the slot of a cache is held for. -/
structure CacheKey (φ : Type) where
  uri : String
  version : Int
  fingerprint : φ
  lineNumbers : Bool
deriving DecidableEq, Repr

/-- A slot, with counts of the look-ups that found a forest in it and of those that did not. -/
structure Cache (φ : Type) where
  key : Option (CacheKey φ)
  forest : Option (Forest Element)
  outline : Option (Forest Outline.Symbol)
  hits : Nat
  misses : Nat
deriving DecidableEq, Repr

namespace Cache

variable {φ : Type} [DecidableEq φ]

/-- The cache that has not been used. -/
def empty : Cache φ :=
  ⟨none, none, none, 0, 0⟩

/-- Empties the slot; the counts stay. -/
def invalidate (c : Cache φ) : Cache φ :=
  { c with key := none, forest := none, outline := none }

/-- The forest held for a key. A look-up that finds none leaves the slot empty and held for the key
asked for. -/
def lookup (c : Cache φ) (key : CacheKey φ) : Option (Forest Element) × Cache φ :=
  -- every miss forgets the outline too, as it was made from the forest that is gone
  let missed := { c with key := some key, forest := none, outline := none, misses := c.misses + 1 }
  if c.key = some key then
    match c.forest with
    | some forest => (some forest, { c with hits := c.hits + 1 })
    | none => (none, missed)
  else (none, missed)

/-- Puts a forest into the slot. An outline made for another key is dropped. -/
def store (c : Cache φ) (key : CacheKey φ) (forest : Forest Element) : Cache φ :=
  { c with
    key := some key
    forest := some forest
    outline := if c.key = some key then c.outline else none }

theorem lookup_fst (c : Cache φ) (key : CacheKey φ) :
    (c.lookup key).1 = if c.key = some key then c.forest else none := by
  unfold lookup
  split
  · cases c.forest <;> rfl
  · rfl

/-- What is stored is found, under its own key alone. -/
theorem lookup_store (c : Cache φ) (key other : CacheKey φ) (forest : Forest Element) :
    ((c.store key forest).lookup other).1 = if key = other then some forest else none := by
  rw [lookup_fst]
  simp [store]

theorem lookup_invalidate (c : Cache φ) (key : CacheKey φ) : (c.invalidate.lookup key).1 = none := by
  simp [lookup_fst, invalidate]

/-- Puts an outline into the slot. -/
def storeOutline (c : Cache φ) (outline : Forest Outline.Symbol) : Cache φ :=
  { c with outline := some outline }

end Cache

end MarkupOutline
