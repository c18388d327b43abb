/-!
# Attributes

`Attributes` maps keys to values and remembers the order in which the keys first came. What an
insertion does is said by `keys_insert` for the order and by `get?_insert` for the values.
-/

namespace MarkupOutline

/-- Values by key, in the order in which the keys first came. -/
structure Attributes where
  entries : List (String × String)
  keys_nodup : (entries.map (·.1)).Nodup
deriving DecidableEq, Repr

namespace Attributes

/-- No attributes. -/
def empty : Attributes :=
  ⟨[], List.nodup_nil⟩

instance : EmptyCollection Attributes := ⟨empty⟩
instance : Inhabited Attributes := ⟨empty⟩

/-- The keys in order. -/
def keys (a : Attributes) : List String :=
  a.entries.map (·.1)

/-- The value of a key. -/
def get? (a : Attributes) (key : String) : Option String :=
  a.entries.lookup key

/-- The number of keys. -/
def size (a : Attributes) : Nat :=
  a.entries.length

/-- Gives a key a value; a key that is there already keeps its place. -/
def insert (a : Attributes) (key value : String) : Attributes :=
  if h : key ∈ a.keys then
    ⟨a.entries.map fun e => if e.1 = key then (key, value) else e, by
      have same : (fun e : String × String => (if e.1 = key then (key, value) else e).1) = (·.1) := by
        funext e
        split
        · next he => exact he.symm
        · rfl
      rw [List.map_map, Function.comp_def, same]
      exact a.keys_nodup⟩
  else
    ⟨a.entries ++ [(key, value)], by
      rw [List.map_append, List.nodup_append]
      refine ⟨a.keys_nodup, by simp, ?_⟩
      intro k hk k' hk' heq
      simp only [List.map_cons, List.map_nil, List.mem_singleton] at hk'
      exact h (by rw [← hk', ← heq]; exact hk)⟩

theorem keys_insert (a : Attributes) (key value : String) :
    (a.insert key value).keys = if key ∈ a.keys then a.keys else a.keys ++ [key] := by
  unfold insert
  split
  · simp only [keys, List.map_map]
    refine List.map_congr_left fun e _ => ?_
    simp only [Function.comp_apply]
    split
    · next h => exact h.symm
    · rfl
  · simp [keys]

theorem lookup_cons (key value other : String) (entries : List (String × String)) :
    ((key, value) :: entries).lookup other =
      if other = key then some value else entries.lookup other := by
  rw [List.lookup_cons]
  by_cases h : other = key
  · simp [h]
  · simp [h, beq_eq_false_iff_ne.2 h]

theorem lookup_map_value (key value other : String) (entries : List (String × String)) :
    (entries.map fun e => if e.1 = key then (key, value) else e).lookup other =
      if other = key then (entries.lookup key).map fun _ => value else entries.lookup other := by
  induction entries with
  | nil => simp
  | cons e entries ih =>
    obtain ⟨k, v⟩ := e
    rw [List.map_cons, lookup_cons, lookup_cons]
    by_cases hk : k = key
    · rw [if_pos hk, lookup_cons, ih, hk]
      by_cases ho : other = key <;> simp [ho]
    · rw [if_neg hk, lookup_cons, ih, if_neg (Ne.symm hk)]
      by_cases ho : other = key
      · simp [ho, Ne.symm hk]
      · simp [ho]

theorem get?_eq_none_iff {a : Attributes} {key : String} : a.get? key = none ↔ key ∉ a.keys := by
  rw [get?, keys]
  induction a.entries with
  | nil => simp
  | cons e entries ih =>
    obtain ⟨k, v⟩ := e
    by_cases h : key = k <;> simp [lookup_cons, h, ih]

/-- The key inserted has the new value, all others keep theirs. -/
theorem get?_insert (a : Attributes) (key value other : String) :
    (a.insert key value).get? other = if other = key then some value else a.get? other := by
  by_cases h : key ∈ a.keys
  · simp only [insert, h, ↓reduceDIte, get?, lookup_map_value]
    cases hv : a.entries.lookup key with
    | none => exact absurd h (get?_eq_none_iff.1 hv)
    | some _ => rfl
  · simp only [insert, h, ↓reduceDIte, get?, List.lookup_append, lookup_cons]
    have missing : a.entries.lookup key = none := get?_eq_none_iff.2 h
    by_cases ho : other = key <;> simp [ho, missing]

/-- Inserts pairs from left to right. -/
def ofList (pairs : List (String × String)) : Attributes :=
  pairs.foldl (fun a pair => a.insert pair.1 pair.2) empty

end Attributes

end MarkupOutline
